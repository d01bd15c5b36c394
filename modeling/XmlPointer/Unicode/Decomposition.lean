import XmlPointer.Unicode.Packed

/-! # Canonical decompositions

A character may stand canonically for another character (a singleton, such as the Ohm sign for
the letter omega) or for a pair, a character and the mark or vowel sign after it (é for e and the
acute accent). A pair that composes back is a primary composite; singletons, pairs that begin
with a mark, and the pairs excluded from composition do not compose. Hangul syllables decompose
by arithmetic, not by this table. The table gives the decompositions of Unicode 17. -/
namespace XmlPointer.Unicode

/-- One step of a canonical decomposition. -/
inductive Decomposition where
  | single (c : Nat)
  | pair (first second : Nat)
  deriving Repr, DecidableEq

/-- The decompositions in order of code point, each the distance from the code point before, the
first and the second character (0 for a singleton), and 1 when the pair composes back;
packed. -/
def decompositionText : String :=
  String.join
    ["s0k1jg011k1jg111k1jg211k1jg311k1jg811k1jga12k3ji711k5jg011k5jg111k5jg211k5jg811k9jg011k9jg11",
     "1k9jg211k9jg812kejg311kfjg011kfjg111kfjg211kfjg311kfjg813l5jg011l5jg111l5jg211l5jg811l9jg113",
     "m1jg011m1jg111m1jg211m1jg311m1jg811m1jga12m3ji711m5jg011m5jg111m5jg211m5jg811m9jg011m9jg111m",
     "9jg211m9jg812mejg311mfjg011mfjg111mfjg211mfjg311mfjg813n5jg011n5jg111n5jg211n5jg811n9jg112n9",
     "jg811k1jg411m1jg411k1jg611m1jg611k1ji811m1ji811k3jg111m3jg111k3jg211m3jg211k3jg711m3jg711k3j",
     "gc11m3jgc11k4jgc11m4jgc13k5jg411m5jg411k5jg611m5jg611k5jg711m5jg711k5ji811m5ji811k5jgc11m5jg",
     "c11k7jg211m7jg211k7jg611m7jg611k7jg711m7jg711k7ji711m7ji711k8jg211m8jg213k9jg311m9jg311k9jg4",
     "11m9jg411k9jg611m9jg611k9ji811m9ji811k9jg714kajg211majg211kbji711mbji712kcjg111mcjg111kcji71",
     "1mcji711kcjgc11mcjgc15kejg111mejg111keji711meji711kejgc11mejgc14kfjg411mfjg411kfjg611mfjg611",
     "kfjgb11mfjgb13l2jg111n2jg111l2ji711n2ji711l2jgc11n2jgc11l3jg111n3jg111l3jg211n3jg211l3ji711n",
     "3ji711l3jgc11n3jgc11l4ji711n4ji711l4jgc11n4jgc13l5jg311n5jg311l5jg411n5jg411l5jg611n5jg611l5",
     "jga11n5jga11l5jgb11n5jgb11l5ji811n5ji811l7jg211n7jg211l9jg211n9jg211l9jg811lajg111najg111laj",
     "g711najg711lajgc11najgc1i2kfjhb11mfjhb1el5jhb11n5jhb1hdk1jgc11m1jgc11k9jgc11m9jgc11kfjgc11mf",
     "jgc11l5jgc11n5jgc11tcjg411vcjg411tcjg111vcjg111tcjgc11vcjgc11tcjg011vcjg012s4jg411u4jg411ii6",
     "jg411ii7jg411s6jg411u6jg413k7jgc11m7jgc11kbjgc11mbjgc11kfji811mfji811huajg411hubjg411hr7jgc1",
     "1ip2jgc11majgc14k7jg111m7jg113kejg011mejg011s5jg111u5jg111s6jg111u6jg111t8jg111v8jg111k1jgf1",
     "1m1jgf11k1jh111m1jh111k5jgf11m5jgf11k5jh111m5jh111k9jgf11m9jgf11k9jh111m9jh111kfjgf11mfjgf11",
     "kfjh111mfjh111l2jgf11n2jgf11l2jh111n2jh111l5jgf11n5jgf11l5jh111n5jh111l3ji611n3ji611l4ji611n",
     "4ji613k8jgc11m8jgc17k1jg711m1jg711k5ji711m5ji711t6jg411v6jg411t5jg411v5jg411kfjg711mfjg711ii",
     "ejg411iifjg411l9jg411n9jg41hgdjg0001jg1002jh3001jg8jg10j0ir900ajb007q8jg111jp1jg111r7001jp5j",
     "g111jp7jg111jp9jg112jpfjg112jq5jg111jq9jg111jsajg11hajp9jg811jq5jg811jr1jg111jr5jg111jr7jg11",
     "1jr9jg111jsbjg11hajr9jg811js5jg811jrfjg111js5jg111js9jg115jt2jg111jt2jg81ickh5jg011kh5jg812k",
     "h3jg114kg6jg815khajg111kh8jg011ki3jg61bkh8jg61i0kj8jg61h7kj5jg011kj5jg812kj3jg114kl6jg815kja",
     "jg111kj8jg011kk3jg61h8kn4jgf11kn5jgf1kakh6jg611kj6jg61ekh0jg611kj0jg611kh0jg811kj0jg813kh5jg",
     "611kj5jg613kt8jg811kt9jg811kh6jg811kj6jg811kh7jg811kj7jg813kh8jg411kj8jg411kh8jg811kj8jg811k",
     "hejg811kjejg813ku8jg811ku9jg811kidjg811kkdjg811ki3jg411kk3jg411ki3jg811kk3jg811ki3jgb11kk3jg",
     "b11ki7jg811kk7jg813kibjg811kkbjg81hi9mi7ml311mi7ml411mk8ml411mi7ml511mkaml41pamt5ml412ms1ml4",
     "1h1mt2ml41il6pi8pjc18pj0pjc13pj3pjc1i4ph5pjc01ph6pjc01ph7pjc01phcpjc01pi1pjc01pi2pjc01pibpjc",
     "01pifpjc0mcps7pre11ps7pt71h0pq1prc01pq2prc02pqfprc0l4qj2qjc03qj8qjc0i3qh6qjc01qh7qjc01qhcqjc",
     "03qibqjc0uark7rl613rk7rje11rk7rl71h0ri1rjc01ri2rjc0j7rp2rt71j6rs6rre11rs7rre11rs6rt71ncsk6sl",
     "61n8srfst517ss6st511ss6st612ss6ss211ssast51nftk6tje11tk7tje11tk6tl71oett9tsa12tt9tsf11ttctsa",
     "11tt9ttf1hm5vk2vr70avkcvr705vl1vr705vl6vr705vlbvr70dvk0vr50avn1vn202vn1vn401vr2vo002vr3vo009",
     "vn1vo00h2vp2vr70avpcvr705vq1vr705vq6vr705vqbvr70dvp0vr50mdhgi5hgie1qu0hrg5hrj512hrg7hrj512hr",
     "g9hrj512hrgbhrj512hrgdhrj514hrh1hrj51i9hrjahrj512hrjchrj513hrjehrj511hrjfhrj512hrk2hrj51irdk",
     "1ji511m1ji511k2jg711m2jg711k2ji311m2ji311k2jj111m2jj111s7jg111u7jg111k4jg711m4jg711k4ji311m4",
     "ji311k4jj111m4jj111k4ji711m4ji711k4jid11m4jid11hh2jg011hh3jg011hh2jg111hh3jg111k5jid11m5jid1",
     "1k5jj011m5jj011ii8jg611ii9jg611k6jg711m6jg711k7jg411m7jg411k8jg711m8jg711k8ji311m8ji311k8jg8",
     "11m8jg811k8ji711m8ji711k8jie11m8jie11k9jj011m9jj011sfjg111ufjg111kbjg111mbjg111kbji311mbji31",
     "1kbjj111mbjj111kcji311mcji311huj6jg411huj7jg411kcjj111mcjj111kcjid11mcjid11kdjg111mdjg111kdj",
     "g711mdjg711kdji311mdji311kejg711mejg711keji311meji311kejj111mejj111kejid11mejid11t5jg111v5jg",
     "111t5jg811v5jg811hkcjg011hkdjg011hkcjg111hkdjg111l0jg111n0jg111l0jg711n0jg711l2jg711n2jg711l",
     "2ji311n2ji311hulajg411hulbjg411l2jj111n2jj111l3jg711n3jg711l3ji311n3ji311hlajg711hlbjg711hm0",
     "jg711hm1jg711hum2jg711hum3jg711l4jg711n4jg711l4ji311n4ji311l4jj111n4jj111l4jid11n4jid11l5ji4",
     "11n5ji411l5jj011n5jj011l5jid11n5jid11hm8jg111hm9jg111hmajg811hmbjg811l6jg311n6jg311l6ji311n6",
     "ji311l7jg011n7jg011l7jg111n7jg111l7jg811n7jg811l7jg711n7jg711l7ji311n7ji311l8jg711n8jg711l8j",
     "g811n8jg811l9jg711n9jg711lajg211najg211laji311naji311lajj111najj111m8jj111n4jg811n7jga11n9jg",
     "a12hnfjg715k1ji311m1ji311k1jg911m1jg911s2jg111u2jg111s2jg011u2jg011s2jg911u2jg911s2jg311u2jg",
     "311huq0jg211huq1jg211hg2jg111hg3jg111hg2jg011hg3jg011hg2jg911hg3jg911hg2jg311hg3jg311huq0jg6",
     "11huq1jg611k5ji311m5ji311k5jg911m5jg911k5jg311m5jg311sajg111uajg111sajg011uajg011sajg911uajg",
     "911sajg311uajg311hur8jg211hur9jg211k9jg911m9jg911k9ji311m9ji311kfji311mfji311kfjg911mfjg911t",
     "4jg111v4jg111t4jg011v4jg011t4jg911v4jg911t4jg311v4jg311huscjg211husdjg211hq0jg111hq1jg111hq0",
     "jg011hq1jg011hq0jg911hq1jg911hq0jg311hq1jg311hq0ji311hq1ji311l5ji311n5ji311l5jg911n5jg911hqf",
     "jg111hr0jg111hqfjg011hr0jg011hqfjg911hr0jg911hqfjg311hr0jg311hqfji311hr0ji311l9jg011n9jg011l",
     "9ji311n9ji311l9jg911n9jg911l9jg311n9jg317jr1jh311jr1jh411hvg0jg011hvg1jg011hvg0jg111hvg1jg11",
     "1hvg0jk211hvg1jk211jp1jh311jp1jh411hvg8jg011hvg9jg011hvg8jg111hvg9jg111hvg8jk211hvg9jk211jr5",
     "jh311jr5jh411hvh0jg011hvh1jg011hvh0jg111hvh1jg113jp5jh311jp5jh411hvh8jg011hvh9jg011hvh8jg111",
     "hvh9jg113jr7jh311jr7jh411hvi0jg011hvi1jg011hvi0jg111hvi1jg111hvi0jk211hvi1jk211jp7jh311jp7jh",
     "411hvi8jg011hvi9jg011hvi8jg111hvi9jg111hvi8jk211hvi9jk211jr9jh311jr9jh411hvj0jg011hvj1jg011h",
     "vj0jg111hvj1jg111hvj0jk211hvj1jk211jp9jh311jp9jh411hvj8jg011hvj9jg011hvj8jg111hvj9jg111hvj8j",
     "k211hvj9jk211jrfjh311jrfjh411hvk0jg011hvk1jg011hvk0jg111hvk1jg113jpfjh311jpfjh411hvk8jg011hv",
     "k9jg011hvk8jg111hvk9jg113js5jh311js5jh411hvl0jg011hvl1jg011hvl0jg111hvl1jg111hvl0jk211hvl1jk",
     "212jq5jh412hvl9jg012hvl9jg112hvl9jk211js9jh311js9jh411hvm0jg011hvm1jg011hvm0jg111hvm1jg111hv",
     "m0jk211hvm1jk211jq9jh311jq9jh411hvm8jg011hvm9jg011hvm8jg111hvm9jg111hvm8jk211hvm9jk211jr1jg0",
     "11jqc001jr5jg011jqd001jr7jg011jqe001jr9jg011jqf001jrfjg011jsc001js5jg011jsd001js9jg011jse003",
     "hvg0jk511hvg1jk511hvg2jk511hvg3jk511hvg4jk511hvg5jk511hvg6jk511hvg7jk511hvg8jk511hvg9jk511hv",
     "gajk511hvgbjk511hvgcjk511hvgdjk511hvgejk511hvgfjk511hvi0jk511hvi1jk511hvi2jk511hvi3jk511hvi4",
     "jk511hvi5jk511hvi6jk511hvi7jk511hvi8jk511hvi9jk511hviajk511hvibjk511hvicjk511hvidjk511hviejk",
     "511hvifjk511hvm0jk511hvm1jk511hvm2jk511hvm3jk511hvm4jk511hvm5jk511hvm6jk511hvm7jk511hvm8jk51",
     "1hvm9jk511hvmajk511hvmbjk511hvmcjk511hvmdjk511hvmejk511hvmfjk511jr1jg611jr1jg411hvn0jk511jr1",
     "jk511jqcjk512jr1jk211hvr6jk511jp1jg611jp1jg411jp1jg011jo6001jp1jk512jr9003q8jk211hvn4jk511jr",
     "7jk511jqejk512jr7jk211hvs6jk511jp5jg011jo8001jp7jg011jo9001jp7jk511hvrfjg011hvrfjg111hvrfjk2",
     "11jr9jg611jr9jg411jsajg011jp0003jr9jk211jsajk211jp9jg611jp9jg411jp9jg011joa002hvvejg011hvvej",
     "g111hvvejk211js5jg611js5jg411jsbjg011jr0001js1jh311js1jh411js5jk211jsbjk211jq5jg611jq5jg411j",
     "q5jg011joe001jq1jh411q8jg011jo5001m0003hvncjk511js9jk511jsejk512js9jk211hvv6jk511jpfjg011joc",
     "001jq9jg011jof001jq9jk511r4003igg2001igg300hi5jq9004kb001s500mfihp0jj811ihp2jj81h3ihp4jj81hf",
     "iht0jj811iht4jj811iht2jj81j5iig3jj815iig8jj813iigbjj81h8iii3jj812iii5jj81hbiijcjj813iik3jj81",
     "3iik5jj812iik8jj81h7jdjj812iim1jj81biikdjj811jcjj811jejj811iim4jj811iim5jj813iin2jj811iin3jj",
     "813iin6jj811iin7jj817iinajj811iinbjj813iio2jj811iio3jj813iio6jj811iio7jj81i3iiq2jj811iiq8jj8",
     "11iiq9jj811iiqbjj81j1iincjj811iindjj811iip1jj811iip2jj817iir2jj811iir3jj811iir4jj811iir5jj81",
     "jcjgg8001jgg900nr2iqtdjj80ln0jgkbjgp912jgkdjgp912jgkfjgp912jgl1jgp912jgl3jgp912jgl5jgp912jgl",
     "7jgp912jgl9jgp912jglbjgp912jgldjgp912jglfjgp912jgm1jgp913jgm4jgp912jgm6jgp912jgm8jgp917jgmfj",
     "gp911jgmfjgpa12jgn2jgp911jgn2jgpa12jgn5jgp911jgn5jgpa12jgn8jgp911jgn8jgpa12jgnbjgp911jgnbjgp",
     "a1h7jgk6jgp91ajgpdjgp91ejgqbjgp912jgqdjgp912jgqfjgp912jgr1jgp912jgr3jgp912jgr5jgp912jgr7jgp9",
     "12jgr9jgp912jgrbjgp912jgrdjgp912jgrfjgp912jgs1jgp913jgs4jgp912jgs6jgp912jgs8jgp917jgsfjgp911",
     "jgsfjgpa12jgt2jgp911jgt2jgpa12jgt5jgp911jgt5jgpa12jgt8jgp911jgt8jgpa12jgtbjgp911jgtbjgpa1h7j",
     "gq6jgp913jgufjgp911jgv0jgp911jgv1jgp911jgv2jgp914jgvdjgp91sog2osk8001mmv4001ousa001oss8001mu",
     "t1001kuj2001lju5001pvpc001pvpc001lpl1001pht1001llo7001lpk8001mhv6001nmm9001nvo5001omjf001onr",
     "a001oov8001pgof001mqg2001mthb001ngt9001njte001okjd001phma001ppv1001kuo2001ljn5001mrg4001nihb",
     "001omid001puhe001ltl0001mvub001olsd001opm4001mis9001oht8001oohf001lusa001mnh7001mtma001nivc0",
     "01pgse001kvo6001lhr7001lite001mks4001mqt3001nih0001nmu7001ogg1001omg6001omlc001otuf001pnj200",
     "1prmf001ptva001nooc001npnf001ntq0001ojs9001pjg4001punf001oqt6001lotf001lvg4001nsm0001ogne001",
     "nim2001nosa001oss2001pmv7001lot8001lsm2001mqh3001mtta001mvgf001ntif001nuj7001pmkb001lit2001o",
     "gob001lhtc001lhsc001nqhc001ntre001ojv1001pmn5001oro0001misf001mqg2001oqve001kuj9001lru7001mg",
     "h2001njo7001nln0001ljh7001novb001kvrf001lvq9001kugd001mssc001mln8001nti2001ljs3001lole001nng",
     "1001okk9001oqqa001mrra001ovr0001mso8001mive001oiu5001mjq0001nlm5001kuqe001lhm9001lhs9001moo1",
     "001nsu7001oimf001oqt2001phsf001liv5001lkk2001lpn3001luuc001mls5001mvve001npia001plqd001pqma0",
     "01pup7001puse001lipb001mms6001mrn7001ovm2001lun4001mhp0001mig0001mkpa001mvi3001nhk9001nko900",
     "1npsa001ntv4001ogmf001ovi6001okue001pgi3001pjka001lih7001liq3001lkrd001ngs8001oos2001oqqa001",
     "lus9001lvv5001mjnb001mrqe001nsje001njn5001kuu4001lmv9001lru7001ltra001mghc001njr2001nkm9001n",
     "vpa001ogk6001pij4001pmv6001pnk8001poh8001kvob001npqe001phr4001pmr8001mgu1001kuo6001lgta001lr",
     "ue001lsjf001mlp9001mqg2001nhse001nmk2001okvc001pgnc001pvod001mmo8001pmie001lio9001mnnb001mnv",
     "3001mtk1001mupc001nkg9001nll9001nomb001nth0001pole001lhmd001miie001pmn8001lgib001lth9001mtua",
     "001ovia001lvob001mhk4001moh7001njo7001pmo6001lii9001lkgf001lsm5001mmh3001mnke001moq8001msu50",
     "01nkg6001nlu2001nvn9001oosf001oou1001phsc001pmu2001ljjf001mura001lkhd001nht0001nkp8001olva00",
     "1pmq3001psl7001pupf001mnp7001mtsb001ohu8001nqsb001nri0001nsp2001nis0001ngp9001orl8001kus0001",
     "ojj6001lija001lig7001luq6001mit3001nst6001lro5001mthe001mmr4001ovjb001ookc001pmkd001opob001l",
     "ut3001lhk0001lls0003lola002mmn4003lhte001njia001nmsa001npjc001nple001npm5001npof001pnl6001ns",
     "re001nvrd002omh2002oqv8003pgj8001pgvd004pouf001povc001ppi8001ptr4001pgte001pmr7001kvqe001lgu",
     "7001lhkd001lis9001liu4001ljl1001llpd001lmg6001lmm8001lok0001loq8001lsm4001lsme001mgp4001mhm8",
     "001mhoe001mhv2001mlkf001mlu2001mmp1001moo5001mtn7001muha001mvi2001nhme001niib001nki2001nop10",
     "01npje001npk9001npk8001npl0001npl6001npld001npod001npoe001nqk0001nqo1001nrs0001ntv4001nug900",
     "1nuk1001nvn2001ogg5001ohud001oin9001oin9001okl7001oph0001opp6001org1001orj9001ost3001otg8001",
     "ovr6001pgj8001pmu3001pnvf001pojb001mgn5001ikiue001oih8003kui6001lhr5001lhm8001kvo0001lhk5001",
     "lho0001lis7001liva001llpd001lll5001llp9001llu2001lola001lor3001lpk4001lpl4001lqm2001lri8001l",
     "ut2001lut9001lvm9001lvqd001mgt8001mhke001mhg8001mhoe001mhm0001mhv2001mij4001mjs4001mkhc001mk",
     "l2001mll6001mmn4001mnh7001mnhb001mnl6001mrn9001mrra001mtk1001mutb001musb001mvi2001nghe001nhm",
     "e001nnq7001nij5001niqf001njia001nkn1001nlg6001nljb001nmhd001nmhf001nmsa001nmtb001nmv4001nnka",
     "001nnk0001nosc001nqr1001nrs0001nsnb001ntlb001ntv4001nvje001ogg5001ojl2001ojuf001onn9001opk10",
     "01opo6001opp6001oqrf001oqv8001oqsb001org1001oqve001oqud001orj9001oroa001otg8001ovj8001pgn200",
     "1php9001pin6001pmnc001pmu3001pnl6001pntb001pnvf001pogb001pojb001prh2001pvpc001iioka001iiok40",
     "01ijjt5001jrpd001kgh8001kgj9001ilik9001ilst0001inut3001pvk3001pvoe00k4lt9lr402lv2lr70blu9ls1",
     "01lu9ls201vrk9ls101vrk9ls201lt0lr701lt0lr801lt0lrc01lt1lrc01lt2lrc01lt3lrc01lt4lrc01lt5lrc01",
     "lt6lrc02lt8lrc01lt9lrc01ltalrc01ltblrc01ltclrc02ltelrc02lu0lrc01lu1lrc02lu3lrc01lu4lrc02lu6l",
     "rc01lu7lrc01lu8lrc01lu9lrc01lualrc01lt5lr901lt1lrf01ltblrf01lu4lrf0qnbhglt2jg71hbhgltajg71qr",
     "6hhgp9hhgra12hhgpbhhgra1fhhgq5hhgra1o3hhhj1hhhi711hhhj2hhhi71ihchhjk7hhjje11hhjk7hhjl71j7hhj",
     "o2hhjs912hhjo4hhjrb19hhjobhhjs213hhjp0hhjs91j4hhjs2hhjs212hhjs2hhjr811hhjs2hhjs91v3hhkr9hhkr",
     "a11hhkr9hhkr012hhkr9hhkrd1vchhlr8hhlqf11hhlr9hhlqf1jndhhpj5hhpj01knu9hmhhehmhhe11hmhhehmhi91",
     "1hmhhehmhhf11hmhi9hmhhf11hmhhehmhi011hmhi1hmhhf11hmhi2hmhhf11hmhi1hmhi01sk0hmtm7hmtm711hmtm3",
     "hmtm711hmtm9hmtm71mjv4hthl7hthm501hthl8hthm501hthlfhthme01hthlfhthmf01hthlfhthn001hthlfhthn1",
     "01hthlfhthn20l7hthr9hthm501hthrahthm501hthrbhthme01hthrchthme01hthrbhthmf01hthrchthmf0himk0k",
     "ujd001kuj8001kuk1001ighi2001kvm0001kvqe001kvrb001lgg2001lgna001lgp9001lgu7001lgsf001jkpe001i",
     "gmja001lhkd001lhl4001lhm4001lhn7001iglhc001jkr9001lhm7001lhod001iglkb001lhp7001lhq4001kusc00",
     "1lhqc001lhr5001iphtf001lhv5001lig3001jktf001lijb001lik6001lin2001lin7001jlh5001lis7001lis900",
     "1liu4001liva001ljg5001ljg6001ljh7001ljk9001ljl1001ljla001ljn3001ljnd001ljnf001ljnf001ljnf001",
     "igqic001ngn0001ljsa001ljtf001igrm3001ljub001ljv1001lkg6001lkpe001lkj8001lkk8001lkm8001lkq200",
     "1lkv6001llh0001lll3001llm3001llo4001llo4001llp9001llqb001llr3001lls2001lnh6001lmg6001lnh7001",
     "lml1001lmn4001lig7001loue001lnse001lnv4001logd001lnob001loj2001loj1001loqc001ihku4001lov2001",
     "lov7001lpg6001lpha001lpi2001lpm2001ihmq8001ihmua001lpuc001lqhb001lqi7001lpt8001lqm6001jmue00",
     "1jmvc001lrg8001lrje001lrje001ihps8001lrs3001lrt8001lru7001lrv3001ihrh8001lrvf001lsg6001lvl30",
     "01lsi2001jno1001lsm0001lsme001lss0001lsod001ihtu4001ltk3001ihtu6001ltme001ltmb001ltnc001ltu1",
     "001ltu2001joif001ltvd001lui8001lujd001lum9001jom2001iiho3001jonc001lur0001lur3001lur6001lusa",
     "001iqjp2001luve001iijj1001iijj1001oig1001lvi2001lvi2001jos7001ijir8001imhta001lvm2001lvmb001",
     "jou3001lvpa001lvsd001lvt7001lvv9001mgo1001jpja001jphc001mgp4001iimt4001mgs7001mhk8001mhkc001",
     "mhke001mhkc001mhna001mhoe001mhr2001mhq4001mhqf001mhte001mhv2001mhv6001mih0001mihb001mild001m",
     "ir1001mit4001mjl0001iirgc001mjjd001mivc001mjm8001mjo3001mju4001iirv1001mki2001mjs5001mjq9001",
     "jqie001mkm9001mkne001mkpd001mkn7001jqmc001mlkf001mlmc001ijgga001mlu3001mmv8001mmk9001jrh9001",
     "mmp1001jrg8001jqu4001lhp2001lhp5001mng0001mmpc001ogqd001kjt9001mnh7001mnhb001mni1001mnle001m",
     "nl3001ijjs3001jrk9001mnva001mno5001mol2001moo5001ijkmd001mooe001mohf001mph4001jrpd001mpk2001",
     "mpq3001mpua001mqq8001ijmq3001mqtb001jsh8001mri1001ijoq7001mrl4001jske001mrn2001mrpf001mrra00",
     "1mrrb001ijqod001ihtgb001ijqva001mske001ijsrc001msrf001mssd001msm7001mth6001mtje001mtn7001mtk",
     "1001mtm9001mtn8001mto5001ijthe001mtj4001muif001mume001jtj3001musb001mus7001ijut1001mtv9001mv",
     "me001ijvle001ijvoe001mvs6001ngj9001nghe001nghb001jtp6001ngka001ngnd001ngn7001ngqd001igli5001",
     "nhk5001ikim3001nhpc001ikjqb001nii8001nij5001nil0001ikmg8001nio0001nip5001iknj5001ikoh4001njn",
     "a001njob001juqc001njq5001jur8001jur8001nkk7001nklc001nkn1001nko5001nksa001jvhb001nli4001iksj",
     "6001nlje001iksp2001nln0001iihpf001nmh0001ikvq1001ikvr8001ilgk4001jvvc001kgg8001nmv4001ilgv30",
     "01ilgv2001ilhh9001ilhj3001nnhe001nnhf001nnhf001nnka001kgj9001nnob001kgk6001kgp6001ilkhd001no",
     "ke001nooc001nosc001kgu3001ilmi6001npl6001ilmpa001ilms5001npof001npub001khif001nqk0001nqka001",
     "nqkf001ilpnc001ilqq7001ilqq7001nque001kig2001ilrqb001nrs6001nrs9001kii7001ilso0001nst2001kiq",
     "0001nsu8001nsu3001ntg0001ilvo6001ntm3001kjg1001nts7001nug2001nuk5001kjj4001imii8001imik7001k",
     "jl9001imit9001nvna001imjje001nvp5001nvva001ogg5001imkta001imli3001ogm0001imlq8001ogn0001ijjl",
     "f001kjt5001ogr2001ohg3001kkgb001ohje001lqr5001imnq7001imnr5001ijjp3001ijjpc001oig1001oig4001",
     "ovpe001kkmb001oip1001oiob001oipd001lir3001oir1001oir3001oird001oiu6001imrjc001oiu5001ojhd001",
     "ojm3001ojqd001oji3001ojrd001oju7001okl7001ojl3001ojsa001ojsc001ojtc001imsj6001imtmb001imst50",
     "01klib001okv1001okv3001olh6001injsa001olm4001imvic001klld001klm1001imvr1001ingt2001klmb001om",
     "l0001omlc001omm7001omm9001omq9001omo8001onge001omu2001onn9001oni8001onmb001ono6001klt7001onu",
     "1001oog1001klv9001oom0001oom3001inmm7001oot7001oote001kmj5001oova001jkrb001inoqe001inpm6001k",
     "mre001kms7001oqq0001oqud001oroa001osl5001insq8001osqb001oss1001othb001otn7001invif001igog400",
     "1otsb001otrc001otv0001igote001out4001ovj8001iolt2001iolud001pgp4001pgv1001phh1001ionie001phh",
     "b001pij8001pit7001pit8001pinc001pjv9001pkh5001iorva001plob001kpp5001plr7001iotn7001kpu6001pm",
     "s3001ltr2001pni3001iphk5001ipiha001kqme001kqn6001pnu0001ipkga001kqr2001ipkp6001pogb001pogb00",
     "1poi9001iplr6001pou2001krj3001ppi9001ppq7001pps2001ppve001krse001iprj0001prh2001psk0001psvd0",
     "01ksse001ksud001ptm7001iqgse001ksv8001iqhg5001iqige001iqip1001purb001ktl6001puv9001puve001pv",
     "g5001pvgf001pvh6001pvjb001iqmg000"]

/-- The entries of packed decompositions after the code point `prev`: each code point, its
decomposition and whether it composes back, pushed onto `acc`. -/
def decompositionsFrom : Nat → List Nat → Array (Nat × Decomposition × Bool) →
    Array (Nat × Decomposition × Bool)
  | prev, d :: a :: b :: f :: rest, acc =>
    let n := prev + d
    decompositionsFrom n rest (acc.push (n, if b = 0 then .single a else .pair a b, f == 1))
  | _, _, acc => acc

def decompositions : Array (Nat × Decomposition × Bool) :=
  decompositionsFrom 0 (unpack decompositionText) #[]

def decompositionTable : KeyTable Decomposition :=
  ⟨decompositions.map (·.1), decompositions.map (·.2.1)⟩

def pairKey (a b : Nat) : Nat :=
  a * 0x110000 + b

/-- The primary composites by the key of their pair, in order of key. -/
def compositions : List (Nat × Nat) :=
  let pairs := decompositions.toList.filterMap fun
    | (n, .pair a b, true) => some (pairKey a b, n)
    | _ => none
  pairs.mergeSort fun x y => decide (x.1 ≤ y.1)

def compositionTable : KeyTable Nat :=
  ⟨(compositions.map (·.1)).toArray, (compositions.map (·.2)).toArray⟩

def decomposition? (n : Nat) : Option Decomposition :=
  decompositionTable.find? n

def composition? (a b : Nat) : Option Nat :=
  compositionTable.find? (pairKey a b)

end XmlPointer.Unicode
