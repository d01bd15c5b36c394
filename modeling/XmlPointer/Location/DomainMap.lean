import XmlPointer.Unicode.Packed

/-! # Mapping the characters of a domain

Before a domain is checked and written in ASCII, each of its characters is mapped by the IDNA
table of Unicode (UTS 46, nontransitional processing): a character is valid and stays, is a
deviation and stays too (ß, final sigma and the two joiners), is ignored and dropped, is mapped to
other characters (capitals to small letters, compatibility forms to what they stand for), or is
not allowed. The ASCII characters that the table marks for the rules of host names are valid
here; the URL standard refuses the ones it does not allow by its own list. The table gives the
mapping of Unicode 17. -/
namespace XmlPointer.Location

open XmlPointer.Unicode

/-- What the table does with a character. -/
inductive DomainStatus where
  | valid
  | deviation
  | ignored
  | disallowed
  | mapped (image : List Char)
  deriving Repr, DecidableEq

/-- The statuses over all code points, each range its length and a code: 0 valid, 1 deviation,
2 ignored, 3 not allowed, and 4 plus a count when the characters are mapped to that many code
points, which follow; packed. -/
def domainMappingText : String :=
  String.join
    ["10101010101010101010101010101010101010101010101010101010101010101010101010101010101010101010",
     "1010101010101010101010101010101010101015m115m215m315m415m515m615m715m815m915ma15mb15mc15md15",
     "me15mf15n015n115n215n315n415n515n615n715n815n915na101010101010101010101010101010101010101010",
     "10101010101010101010101010101010131313131313131313131313131313131313131313131313131313131313",
     "131315i01010101010101016i0jg81015m11010121016i0jg4101015j215j316i0jg115jrc101016i0ji715j115m",
     "f1017j1igk4j417j1igk4j217j3igk4j41015u015u115u215u315u415u515u615u715u815u915ua15ub15uc15ud1",
     "5ue15uf15v015v115v215v315v415v515v61015v815v915va15vb15vc15vd15ve111010101010101010101010101",
     "01010101010101010101010101010101010101015hg11015hg31015hg51015hg71015hg91015hgb1015hgd1015hg",
     "f1015hh11015hh31015hh51015hh71015hh91015hhb1015hhd1015hhf1015hi11015hi31015hi51015hi71015hi9",
     "1015hib1015hid1015hif1016m9jg71026m9ma15hj51015hj72015hja1015hjc1015hje1026mcr715hk21015hk41",
     "015hk61015hk81016ircme15hkb1015hkd1015hkf1015hl11015hl31015hl51015hl71015hl91015hlb1015hld10",
     "15hlf1015hm11015hm31015hm51015hm71015hm91015hmb1015hmd1015hmf1015hn11015hn31015hn51015hn7101",
     "5vf15hna1015hnc1015hne1015n31015il315ho31015ho51015il415ho81015il615il715hoc2015htd15il915il",
     "b15hp21015im015im31015im915im815hp93015imf15in21015in515hq11015hq31015hq51015io015hq81015io3",
     "2015hqd1015io815hr01015ioa15iob15hr41015hr61015ip215hr93015hrd7036m4hne36mcma36mema15hse1015",
     "ht01015ht21015ht41015ht61015ht81015hta1015htc2015htf1015hu11015hu31015hu51015hu71015hu91015h",
     "ub1015hud1015huf2036m4na15hv51015hp515hrf15hv91015hvb1015hvd1015hvf1015ig11015ig31015ig51015",
     "ig71015ig91015igb1015igd1015igf1015ih11015ih31015ih51015ih71015ih91015ihb1015ihd1015ihf1015h",
     "pe1015ii31015ii51015ii71015ii91015iib1015iid1015iif1015ij11015ij37015ism515ijc1015hpa15ism62",
     "015ik21015ho015io915ioc15ik71015ik91015ikb1015ikd1015ikfm1015m815im615ma15n215in915inb15io11",
     "5n715n9hf016i0jg616i0jg716i0jga16i0ji816i0jg316i0jgb2015im315mc15n315n815ip5lb015jg015jg1101",
     "5jh316jg8jg115jr99012i0015jn11015jn31015ir91015jn7102316i0jr93015jb15jv34316i0jg117i0jg8jg11",
     "5jqc15r715jqd15jqe15jqf1315jsc1315jsd15jse1015jr115jr215jr315jr415jr515jr615jr715jr815jr915j",
     "ra15jrb15jrc15jrd15jre15jrf15js015js11315js315js415js515js615js715js815js915jsa15jsbh6011c01",
     "5jt715jr215jr815js515jsd15jsb15js615js01015jt91015jtb1015jtd1015jtf1015ju11015ju31015ju51015",
     "ju71015ju91015jub1015jud1015juf1015jra15js115js31015jr815jr51015jv81015js315jvb2015jnb15jnc1",
     "5jnd15kl015kl115kl215kl315kl415kl515kl615kl715kl815kl915kla15klb15klc15kld15kle15klf15kj015k",
     "j115kj215kj315kj415kj515kj615kj715kj815kj915kja15kjb15kjc15kjd15kje15kjf15kk015kk115kk215kk3",
     "15kk415kk515kk615kk715kk815kk915kka15kkb15kkc15kkd15kke15kkfj0015km11015km31015km51015km7101",
     "5km91015kmb1015kmd1015kmf1015kn11015kn31015kn51015kn71015kn91015knb1015knd1015knf1015ko19015",
     "kob1015kod1015kof1015kp11015kp31015kp51015kp71015kp91015kpb1015kpd1015kpf1015kq11015kq31015k",
     "q51015kq71015kq91015kqb1015kqd1015kqf1015kr11015kr31015kr51015kr71015kr91015krb1015krd1015kr",
     "f1015ksf15ks21015ks41015ks61015ks81015ksa1015ksc1015kse2015kt11015kt31015kt51015kt71015kt910",
     "15ktb1015ktd1015ktf1015ku11015ku31015ku51015ku71015ku91015kub1015kud1015kuf1015kv11015kv3101",
     "5kv51015kv71015kv91015kvb1015kvd1015kvf1015lg11015lg31015lg51015lg71015lg91015lgb1015lgd1015",
     "lgf1015lh11015lh31015lh51015lh71015lh91015lhb1015lhd1015lhf1015li11015li31015li51015li71015l",
     "i91015lib1015lid1015lif101315lm115lm215lm315lm415lm515lm615lm715lm815lm915lma15lmb15lmc15lmd",
     "15lme15lmf15ln015ln115ln215ln315ln415ln515ln615ln715ln815ln915lna15lnb15lnc15lnd15lne15lnf15",
     "lo015lo115lo215lo315lo415lo515lo623ie016lm5lo230233013j7083hb04360h13h6013l8016mi7mn416mk8mn",
     "416ms7mn416mkamn4m4013j0023jb023m50e3jb023j1023f013hc0231013b053i0073kb013n5016ph5pjc16ph6pj",
     "c16ph7pjc16phcpjc16pi1pjc16pi2pjc16pibpjc16pifpjci401380232023h60137013103340239023202340831",
     "04316pq1prc16pq2prc1316pqfprc4023h9023301360432023h601370131016qj2qjc131016qj8qjc13202310135",
     "04320233033107316qh6qjc16qh7qjc16qhcqjc101316qibqjc73h10a3301390133013h6013701320135023a0133",
     "013302310f34023c0737013301380232023h6013701320135023902320233073304316ri1rjc16ri2rjc135023h2",
     "0a3201360333013403320131013203320333033c043503330134023106310e3h5053d0133013h7013h0023901330",
     "1340732013301320234023a073h60133013h7013a0135023901330134073205330134023a01330c3d0133013j301",
     "330136043h0023ha0133013h2033h80139013102370331043601310138063a02330c3j2016ukduj27043hd0i5320",
     "1310135013h80131013c016usdur2a023501310137013a02316uqbup916uqbuq120i03c015vgbj6016vk2vr74013",
     "4016vkcvr74016vl1vr74016vl6vr74016vlbvr7c016vk0vr530432016vn1vn21016vn1vn416vr2vo017vr2vn1vo",
     "016vr3vo017vr3vn1vo07016vn1vo0h1016vp2vr740134016vpcvr74016vq1vr74016vq6vr74016vqbvr7c016vp0",
     "vr53013f013d0i53q0015itg015itg115itg215itg315itg415itg515itg615itg715itg815itg915itga15itgb1",
     "5itgc15itgd15itge15itgf15ith015ith115ith215ith315ith415ith515ith615ith715ith815ith915itha15i",
     "thb15ithc15ithd15ithe15ithf15iti015iti115iti215iti315iti415iti51315iti75315itid23ic015hgtcm2",
     "022u80134023701310134023i90134023i10134023701310134023f013j90134023k3023i0033ha063l602315hjv",
     "015hjv115hjv215hjv315hjv415hjv523io0013hc033l9073h6093h8093h40c3d013301320c3j4022i8023a063a0",
     "63b052a063l9073ib053k60a3hf013c043c0431033ia02350b3ic043ha063b033je023k1013hd023b063a063e023",
     "ie023c0h43kd013q6083jc033f033j3015kj215kj415kje15kk125kk215kka15km315qmkb15hsoa105315hgt015h",
     "gt115hgt215hgt315hgt415hgt515hgt615hgt715hgt815hgt915hgta15hgtb15hgtc15hgtd15hgte15hgtf15hgu",
     "015hgu115hgu215hgu315hgu415hgu515hgu615hgu715hgu815hgu915hgua15hgub15hguc15hgud15hgue15hguf1",
     "5hgv015hgv115hgv215hgv315hgv415hgv515hgv615hgv715hgv815hgv915hgva2315hgvd15hgve15hgvf8083ib0",
     "53ic015m115u615m21015m415m515htd15m715m815m915ma15mb15mc15md15me1015mf15ii315n015n215n415n51",
     "5n715m115il015il115htg215m215m415m515il915ilb15ilc15m71015mb15md15hkb15mf15il415hth615hth715",
     "n015n415n515hthd15imf15n615hti515jr215jr315jr415js615js715m915n215n515n615jr215jr315js115js6",
     "15js7d015kjdi2015il215m315il515v015ilc15m615ilf15im115im515im815im915ima15htnb15ipd15imd15ht",
     "o515ipf15in115in015in215in315in415in515in815io215io315hqb15io915ioa15hthc15iob15ioc15na15ip0",
     "15ip115ip215jr8k0015hug11015hug31015hug51015hug71015hug91015hugb1015hugd1015hugf1015huh11015",
     "huh31015huh51015huh71015huh91015huhb1015huhd1015huhf1015hui11015hui31015hui51015hui71015hui9",
     "1015huib1015huid1015huif1015huj11015huj31015huj51015huj71015huj91015hujb1015hujd1015hujf1015",
     "huk11015huk31015huk51015huk71015huk91015hukb1015hukd1015hukf1015hul11015hul31015hul51015hul7",
     "1015hul91015hulb1015huld1015hulf1015hum11015hum31015hum51015hum71015hum91015humb1015humd1015",
     "humf1015hun11015hun31015hun51015hun71015hun91015hunb1015hund1015hunf1015huo11015huo31015huo5",
     "1015huo71015huo91015huob1015huod1015huof1015hup11015hup31015hup55016m1ire15hum12015tf1015huq",
     "11015huq31015huq51015huq71015huq91015huqb1015huqd1015huqf1015hur11015hur31015hur51015hur7101",
     "5hur91015hurb1015hurd1015hurf1015hus11015hus31015hus51015hus71015hus91015husb1015husd1015hus",
     "f1015hut11015hut31015hut51015hut71015hut91015hutb1015hutd1015hutf1015huu11015huu31015huu5101",
     "5huu71015huu91015huub1015huud1015huuf1015huv11015huv31015huv51015huv71015huv91015huvb1015huv",
     "d1015huvf9015hvg015hvg115hvg215hvg315hvg415hvg515hvg615hvg7602315hvh015hvh115hvh215hvh315hvh",
     "415hvh5238015hvi015hvi115hvi215hvi315hvi415hvi515hvi615hvi78015hvj015hvj115hvj215hvj315hvj41",
     "5hvj515hvj615hvj7602315hvk015hvk115hvk215hvk315hvk415hvk523801315hvl11315hvl31315hvl51315hvl",
     "78015hvm015hvm115hvm215hvm315hvm415hvm515hvm615hvm71015jqc1015jqd1015jqe1015jqf1015jsc1015js",
     "d1015jse2316hvg0jr916hvg1jr916hvg2jr916hvg3jr916hvg4jr916hvg5jr916hvg6jr916hvg7jr916hvg0jr91",
     "6hvg1jr916hvg2jr916hvg3jr916hvg4jr916hvg5jr916hvg6jr916hvg7jr916hvi0jr916hvi1jr916hvi2jr916h",
     "vi3jr916hvi4jr916hvi5jr916hvi6jr916hvi7jr916hvi0jr916hvi1jr916hvi2jr916hvi3jr916hvi4jr916hvi",
     "5jr916hvi6jr916hvi7jr916hvm0jr916hvm1jr916hvm2jr916hvm3jr916hvm4jr916hvm5jr916hvm6jr916hvm7j",
     "r916hvm0jr916hvm1jr916hvm2jr916hvm3jr916hvm4jr916hvm5jr916hvm6jr916hvm7jr92016hvn0jr916jr1jr",
     "916jqcjr9131016hvr6jr915hvr015hvr115hvn015jqc16jr1jr916i0jh315jr916i0jh316i0jk217i0jg8jk216h",
     "vn4jr916jr7jr916jqejr9131016hvs6jr915hvn215jqd15hvn415jqe16jr7jr917i0jh3jg017i0jh3jg117i0jh3",
     "jk23015jp0232015hvt015hvt115hvn615jqf1317i0jh4jg017i0jh4jg117i0jh4jk23015jr04015hvu015hvu115",
     "hvna15jsd15hvu517i0jg8jg017i0jg8jg115m02316hvncjr916js9jr916jsejr9131016hvv6jr915hvn815jsc15",
     "hvnc15jse16js9jr916i0jg116i0jh413b5i01221231015igh05016i0jj3c033107315i03016igj2igj217igj2ig",
     "j2igj21016igj5igj517igj5igj5igj54016i1i11016i0jg58016jfjf16jfi116i1jfd018igj2igj2igj2igj2701",
     "5i052536215j015m92315j415j515j615j715j815j915ib15iih215jd15i815i915me15j015j115j215j315j415j",
     "515j615j715j815j915ib15iih215jd15i815i91315m115m515mf15n815il915m815mb15mc15md15me15n015n315",
     "n4338016n2n3h90e3i10f317m1ifm317m1ifn315m316r0m31017m3ifmf17m3ifn515ilb1016r0m615m745m815hi7",
     "25m925mc1015me16memf2015n015n135n22016n3md17n4m5mc16n4md1015na1015js91015na1015mb15u515m215m",
     "31025m515m615ihke15md15mf15lt015lt115lt215lt315m91017m6m1n815js025jr315js015iih14025m415m515",
     "m915ma6017j1igk4j717j1igk4j918j1igk4j1j017j1igk4j317j2igk4j317j1igk4j517j2igk4j517j3igk4j517",
     "j4igk4j517j1igk4j617j5igk4j617j1igk4j817j3igk4j817j5igk4j817j7igk4j816j1igk415m916m9m917m9m9",
     "m916m9n615n616n6m917n6m9m918n6m9m9m916m9n815n816n8m917n8m9m915mc15m315m415md15m916m9m917m9m9",
     "m916m9n615n616n6m917n6m9m918n6m9m9m916m9n815n816n8m917n8m9m915mc15m315m415md3015iho45017j0ig",
     "k4j32043pc016iiibiiib17iiibiiibiiib1016iiieiiie17iiieiiieiiiev8015jgg815jgg9vf0h63b0h5315j11",
     "5j215j315j415j515j615j715j815j916j1j016j1j116j1j216j1j316j1j416j1j516j1j616j1j716j1j816j1j91",
     "6j2j017i8j1i917i8j2i917i8j3i917i8j4i917i8j5i917i8j6i917i8j7i917i8j8i917i8j9i918i8j1j0i918i8j",
     "1j1i918i8j1j2i918i8j1j3i918i8j1j4i918i8j1j5i918i8j1j6i918i8j1j7i918i8j1j8i918i8j1j9i918i8j2j",
     "0i9h4317i8m1i917i8m2i917i8m3i917i8m4i917i8m5i917i8m6i917i8m7i917i8m8i917i8m9i917i8mai917i8mb",
     "i917i8mci917i8mdi917i8mei917i8mfi917i8n0i917i8n1i917i8n2i917i8n3i917i8n4i917i8n5i917i8n6i917",
     "i8n7i917i8n8i917i8n9i917i8nai915m115m215m315m415m515m615m715m815m915ma15mb15mc15md15me15mf15",
     "n015n115n215n315n415n515n615n715n815n915na15m115m215m315m415m515m615m715m815m915ma15mb15mc15",
     "md15me15mf15n015n115n215n315n415n515n615n715n815n915na15j0li1018iiibiiibiiibiiibm7017jajajd1",
     "6jdjd17jdjdjdm5016iqtdjj8p7023oa015isj015isj115isj215isj315isj415isj515isj615isj715isj815isj",
     "915isja15isjb15isjc15isjd15isje15isjf15isk015isk115isk215isk315isk415isk515isk615isk715isk81",
     "5isk915iska15iskb15iskc15iskd15iske15iskf15isl015isl115isl215isl315isl415isl515isl615isl715i",
     "sl815isl915isla15islb15islc15isld15isle15islfj0015ism11015imb15htnd15ind2015ism81015isma1015",
     "ismc1015il115in115il015il21015isn32015isn66015ma15n615ijf15ik015iso11015iso31015iso51015iso7",
     "1015iso91015isob1015isod1015isof1015isp11015isp31015isp51015isp71015isp91015ispb1015ispd1015",
     "ispf1015isq11015isq31015isq51015isq71015isq91015isqb1015isqd1015isqf1015isr11015isr31015isr5",
     "1015isr71015isr91015isrb1015isrd1015isrf1015iss11015iss31015iss51015iss71015iss91015issb1015",
     "issd1015issf1015ist11015ist31015ist51015ist71015ist91015istb1015istd1015istf1015isu11015isu3",
     "8015isuc1015isue4015isv31053id01310531023j807315itm110e3h80937013701370137013701370137013701",
     "3ne0i23ha0134015mrsdl3015pvpfc315kug015kui815kuj615kujf15kul915kuo515kuoc15kuq015kura15lhjf1",
     "5lhm515lhmb15lho215lhp615lhqb15lhu015lhv515lig015lipb15liv915ljh515ljha15ljj815ljk115ljlc15l",
     "jm915ljo215ljr615ljs815lju315lmt715lnhf15loub15lpg215lpga15lph515lpi715lpn315lrl015lro015lrv",
     "815lsgf15lsi215lsj815lsme15lsn115lttb15ltu515ltv115ltve15lun215luna15lunf15luv415luve15lvgb1",
     "5lvh315lvl015lvm115lvn315lvs315mig815mij615mikb15mlif15mlj415mlo715mlp715mlq415mlr915mlu015m",
     "lu515mmv015mng815mni815mri015mrm215mrn915mrr315mrsb15mrt415mrtb15msgf15msh415msj415ngmb15nii",
     "a15nij615nijb15nijf15nik715nil915nilb15niqc15njo415njo915nktc15nku615nlh815nlhf15nli815nlj01",
     "5nlob15nlp215nmn615nmnd15nmqe15nmrf15nmue15nntb15nnu215nnv315npja15npr815npre15nqn415nqsb15n",
     "qv915nsn315nsv815nvj615nvl115nvoa15nvrd15ogg115oggc15ogh215ogj315ognf15ogo915ohu315ohua15ohv",
     "315ohvc15oigc15oihb15oihf15oime15oin215oin815omkd15ommb15ook015ookc15oom315opne15opob15opt21",
     "5oqg015osj715osk615osl515osn815ospd15otm415otn015otr315ouqb15ousa15ovpb15ovr015ovr515pgp115p",
     "hk915phs615phsc15pht115pln715plo015pmhc15pmr615pmr915pmu815pnl115pnle15pnm215pnm915pnsb15pnu",
     "d15pnv315pog115poq815potb15potf15ppp615ppp915ppqc15pqq815pqt815pqtf15pri515prif15prj215prjc1",
     "5prla15psu515pun515punf15puq515purb15pus315pusd15put115puv915puvd15pvge15pvh315pvi015pvjb15p",
     "vka15pvl215pvod15pvpc15pvq0ia315i01015iej3015jgh21015ljk115ljk415ljk55013l60232016i0jgp916i0",
     "jgpa2016jgo8jgoalf016jgr3jgs853ib01315hhg015hhg115hhqa15hhg215hhqc15hhqd15hhg315hhg415hhg515",
     "hhr015hhr115hhr215hhr315hhr415hhr515hhha15hhg615hhg715hhg815hhi115hhg915hhga15hhgb15hhgc15hh",
     "gd15hhge15hhgf15hhh015hhh115hhh215hhm115hhm215hhm315hhm415hhm515hhm615hhm715hhm815hhm915hhma",
     "15hhmb15hhmc15hhmd15hhme15hhmf15hhn015hhn115hhn215hhn315hhn415hhn51215hhh415hhh515hhs715hhs8",
     "15hhsc15hhse15hht315hht715hht915hhhc15hhtd15hhtf15hhhd15hhhe15hhi015hhi215hhi315hhi715hhi915",
     "hhib15hhic15hhid15hhie15hhif15hhj215hhj615hhk015hhk715hhkc15hhv115hhv215hhl715hhl815hhl915hh",
     "o415hho515hho815hhp115hhp215hhp415hhpe15hhq1132015kug015kuoc15kug915lmtb15kuga15kuid15kugb15",
     "nlj215kul915kuh915kug115lpi915lnj015kurak60a3h0017i8hhg0i917i8hhg2i917i8hhg3i917i8hhg5i917i8",
     "hhg6i917i8hhg7i917i8hhg9i917i8hhgbi917i8hhgci917i8hhgei917i8hhgfi917i8hhh0i917i8hhh1i917i8hh",
     "h2i917i8qsg0i917i8rgp8i917i8riu4i917i8rnnci917i8rps8i917i8rsh4i917i8sgqci917i8slk4i917i8snp0",
     "i917i8ssi8i917i8sun4i917i8tgs0i917i8tjgci917i8tll8i917i8sovci918i8smi4sog4i918i8smi4tms4i913",
     "17i8kug0i917i8kuoci917i8kug9i917i8lmtbi917i8kup4i917i8lhmdi917i8kug3i917i8lhmbi917i8kuldi917",
     "i8ljk1i917i8mng8i917i8ngmbi917i8msj4i917i8mni8i917i8pht1i917i8lnhfi917i8mlu5i917i8moiai917i8",
     "mng9i917i8npjei917i8lkgdi917i8nin9i917i8osq1i917i8npldi917i8lir4i917i8kuu3i917i8lknci917i8lr",
     "m6i917i8nmu3i917i8kvg1i917i8oss7i917i8ljl4i917i8npmdi917i8kvh1i917i8ohuai917i8ohv3i915llkf15",
     "lunc15mlo715nrof8017n0n4m516j2j116j2j216j2j316j2j416j2j516j2j616j2j716j2j816j2j916j3j016j3j1",
     "16j3j216j3j316j3j416j3j515hhg015hhg215hhg315hhg515hhg615hhg715hhg915hhgb15hhgc15hhge15hhgf15",
     "hhh015hhh115hhh215qsg015rgp815riu415rnnc15rps815rsh415sgqc15slk415snp015ssi815sun415tgs015tj",
     "gc15tll816ssj8qsu016sovcsnl815smr01015kug015kuoc15kug915lmtb15kup415lhmd15kug315lhmb15kuld15",
     "ljk115mng815ngmb15msj415mni815pht115lnhf15mlu515moia15mng915npje15lkgd15nin915osq115npld15li",
     "r415npt815nlj715lpn315pgm915lhia15ljn015msu815pog515kvh115lhp915mrm315kuga15kuid15kugb15ltu6",
     "15ljv315ljjb15lrp715lrm615nmu315kvg115oss715ljl415lphc16j3j616j3j716j3j816j3j916j4j016j4j116",
     "j4j216j4j316j4j416j4j516j4j616j4j716j4j816j4j916j5j016j1mng816j2mng816j3mng816j4mng816j5mng8",
     "16j6mng816j7mng816j8mng816j9mng817j1j0mng817j1j1mng817j1j2mng816m8m717m5n2m716m5n617mcn4m415",
     "jgq215jgq415jgq615jgq815jgqa15jgqb15jgqd15jgqf15jgr115jgr315jgr515jgr715jgr915jgrb15jgrd15jg",
     "rf15jgs115jgs415jgs615jgs815jgsa15jgsb15jgsc15jgsd15jgse15jgsf15jgt215jgt515jgt815jgtb15jgte",
     "15jgtf15jgu015jgu115jgu215jgu415jgu615jgu815jgu915jgua15jgub15jguc15jgud15jguf15jgv015jgv115",
     "jgv216kuu4lkoc18jgq2jgt1jgvcjgs818jgq2jgubjgt5jgq118jgq2jgv3jgtajgq217jgq2jgvcjgub18jgq4jgsb",
     "jgv3jgr017jgq4jgv3jgs117jgq6jgq9jgv319jgq8jgr9jgqfjgvcjgs918jgq8jgvcjgqbjgvc17jgqajgv3jgr917",
     "jgqajgvcjgu017jgqbjgq4jgua18jgqbjgu9jgs3jgs818jgqbjgudjguajgvc17jgqcjgudjgv317jgqcjgv3jgte16",
     "jgqejgqc17jgqejgsbjgvc18jgqdjgu5jguajgvc18jgqejgubjgs0jgvc16jgqdjgud19jgqdjgudjgr0jgu9jgu01a",
     "jgqdjgudjgu1jgvcjgs8jgub19jgqdjgudjgufjgs3jgs817jgr0jgu9jgu019jgr0jgu9jgu0jgs8jgv319jgqfjgub",
     "jgrcjgq4jgud18jgqfjgudjgvcjgsd17jgr1jgvcjgr917jgr3jgubjgsa17jgr3jgvcjgtd18jgr5jgq4jgqfjgub19",
     "jgr5jgv3jgs1jgvcjgu018jgr7jguajgv3jgr017jgrbjgv3jgs117jgrbjgv3jgs817jgs0jgvcjgr916jgs7jgr716",
     "jgs9jgub16jgs8jgv316jgsajgse17jgsejgs3jgs817jgsfjgq4jgs419jgt1jgvcjgrbjgv3jgs817jgt1jgvcjgs4",
     "18jgt0jgvcjgucjgub19jgt4jgq2jgr9jgs8jgub17jgt4jgqfjgub16jgt4jgr316jgt3jgub19jgt5jgq1jgu9jgs3",
     "jgs918jgt5jgq3jgvcjgs819jgt6jgs3jgr7jgq7jgub17jgt5jgu9jgv319jgt8jgqfjgrfjgvcjgub16jgtajgrd17",
     "jgtajgsbjgt217jgt8jgubjgs417jgtajgv3jgr917jgtajgvcjgr817jgt9jgvcjgrf18jgtdjgq4jgv3jgs817jgtc",
     "jgubjgs816jgtbjgv317jgtdjgv3jgs917jgtbjgvcjgub17jgtbjgvcjgv318jgtejgq4jgqfjgud17jgtejgq4jgub",
     "17jgtejgs3jgsf17jgtejgubjgqf19jgtejgv3jgr7jgu7jgv318jgtfjgqfjgudjgv316jgtfjgua19jgtfjguajgt0",
     "jgvcjgub16jgu1jgqc18jgu1jgqcjgs8jgv318jgu1jgvcjgs8jgub17jgu4jgvcjgs917jgu4jgvcjgub17jgu6jgq2",
     "jgv318jguajgs3jgs8jgub16jguajgu917jgubjgt4jgvc18jgubjgvcjgt6jgub16jgucjgu019jgucjgv3jgs8jgr2",
     "jgv317jgufjgs3jgs816j0ngr916j1ngr916j2ngr916j3ngr916j4ngr916j5ngr916j6ngr916j7ngr916j8ngr916",
     "j9ngr917j1j0ngr917j1j1ngr917j1j2ngr917j1j3ngr917j1j4ngr917j1j5ngr917j1j6ngr917j1j7ngr917j1j8",
     "ngr917j1j9ngr917j2j0ngr917j2j1ngr917j2j2ngr917j2j3ngr917j2j4ngr917m8n0m116m4m116m1n517m2m1n2",
     "16mfn616n0m316m4md17m4mdj217m4mdj316m9n516lun3mih016mmidlkoc16lpi7mrm316mmgemsrb18moialvgfkv",
     "hanpje16n0m116mem116jrcm116mdm116mbm116mbm216mdm216m7m217m3m1mc18mbm3m1mc16n0m616mem616jrcm6",
     "16jrcm716mdm716mbm716m8na17mbm8na17mdm8na17m7m8na17n4m8na16jrcmc16mdmc16m4mc16mbmc16m6md16me",
     "md16jrcmd16mdmd16m3md16mbmd17mdmdj217m3mdj216mdj217mbmdj217mdmdj317m3mdj316mdj317mbmdj317mdi",
     "ih5n318mdiih5n3j216n0m117mbn0m117mdn0m117m7n0m117n2m1m419n2m1m4iih5n31an2m1m4iih5n3j216n0n31",
     "6men316jrcn316mdn316n0n616men616jrcn616mdn616mbn616mdn616n0n716men716jrcn716mdn716mbn716mdn7",
     "16mbjs916mdjs91316m2n116m3m316m3m418m3iih5mbm71316m4m216m7n916m8m116m8n016m9me16mbmb16mbmd16",
     "mbn416mcmd16mcme17mcmfm716mcn816mdm217mdm9mc17mdmfmc16n0m81317n0n0md16n0n216n3n216n3n616n7m2",
     "17n6iih5md17m1iih5md16j1mlu516j2mlu516j3mlu516j4mlu516j5mlu516j6mlu516j7mlu516j8mlu516j9mlu5",
     "17j1j0mlu517j1j1mlu517j1j2mlu517j1j3mlu517j1j4mlu517j1j5mlu517j1j6mlu517j1j7mlu517j1j8mlu517",
     "j1j9mlu517j2j0mlu517j2j1mlu517j2j2mlu517j2j3mlu517j2j4mlu517j2j5mlu517j2j6mlu517j2j7mlu517j2",
     "j8mlu517j2j9mlu517j3j0mlu517j3j1mlu517m7m1mcngod033j7093hlc0h4315qmk11015qmk31015qmk51015qmk",
     "71015qmk91015qmkb1015qmkd1015qmkf1015qml11015qml31015qml51015qml71015qml91015qmlb1015qmld101",
     "5qmlf1015qmm11015qmm31015qmm51015qmm71015qmm91015qmmb1015qmmdh3015qmo11015qmo31015qmo51015qm",
     "o71015qmo91015qmob1015qmod1015qmof1015qmp11015qmp31015qmp51015qmp71015qmp91015qmpb1015kka15k",
     "kcla083i2015qni31015qni51015qni71015qni91015qnib1015qnid1015qnif3015qnj31015qnj51015qnj71015",
     "qnj91015qnjb1015qnjd1015qnjf1015qnk11015qnk31015qnk51015qnk71015qnk91015qnkb1015qnkd1015qnkf",
     "1015qnl11015qnl31015qnl51015qnl71015qnl91015qnlb1015qnld1015qnlf1015qnm11015qnm31015qnm51015",
     "qnm71015qnm91015qnmb1015qnmd1015qnmf1015qnmf8015qnna1015qnnc1015htn915qnnf1015qno11015qno310",
     "15qno51015qno74015qnoc1015im52015qnp11015qnp33015qnp71015qnp91015qnpb1015qnpd1015qnpf1015qnq",
     "11015qnq31015qnq51015qnq71015qnq91015im615ilc15im115imc15ima1015ipe15io715ipd15qrl315qnr5101",
     "5qnr71015qnr91015qnrb1015qnrd1015qnrf1015qns11015qns31015qnp415io215htoe15qns81015qnsa1015im",
     "415qnsd1015qnsf1015qnt11015qnt31015qnt51015qnt71015qnt91015qntb1015hpbh4315n315m315m615n115q",
     "nv62015hi715hl3j3033a063j8083k6083c063n40b3he033ke013b043i1013j7093e023a023m70h83hc0a3602360",
     "23609370137013ic015qni715qrj715imb15qrl29015iod204315hjq015hjq115hjq215hjq315hjq415hjq515hjq",
     "615hjq715hjq815hjq915hjqa15hjqb15hjqc15hjqd15hjqe15hjqf15hjr015hjr115hjr215hjr315hjr415hjr51",
     "5hjr615hjr715hjr815hjr915hjra15hjrb15hjrc15hjrd15hjre15hjrf15hjs015hjs115hjs215hjs315hjs415h",
     "js515hjs615hjs715hjs815hjs915hjsa15hjsb15hjsc15hjsd15hjse15hjsf15hjt015hjt115hjt215hjt315hjt",
     "415hjt515hjt615hjt715hjt815hjt915hjta15hjtb15hjtc15hjtd15hjte15hjtf15hju015hju115hju215hju31",
     "5hju415hju515hju615hju715hju815hju915hjua15hjub15hjuc15hjud15hjue15hjufie023a063irq40c3h7043",
     "j10ihg4315osk815mmv415ousa15oss815mut115kuj215lju525pvpc15lpl115pht115llo715lpk815mhv615nmm9",
     "15nvo515omjf15onra15oov815pgof15mqg215mthb15ngt915njte15okjd15phma15ppv115kuo215ljn515mrg415",
     "nihb15omid15puhe15ltl015mvub15olsd15opm415mis915oht815oohf15lusa15mnh715mtma15nivc15pgse15kv",
     "o615lhr715lite15mks415mqt315nih015nmu715ogg115omg615omlc15otuf15pnj215prmf15ptva15nooc15npnf",
     "15ntq015ojs915pjg415punf15oqt615lotf15lvg415nsm015ogne15nim215nosa15oss215pmv715lot815lsm215",
     "mqh315mtta15mvgf15ntif15nuj715pmkb15lit215ogob15lhtc15lhsc15nqhc15ntre15ojv115pmn515oro015mi",
     "sf15mqg215oqve15kuj915lru715mgh215njo715nln015ljh715novb15kvrf15lvq915kugd15mssc15mln815nti2",
     "15ljs315lole15nng115okk915oqqa15mrra15ovr015mso815mive15oiu515mjq015nlm515kuqe15lhm915lhs915",
     "moo115nsu715oimf15oqt215phsf15liv515lkk215lpn315luuc15mls515mvve15npia15plqd15pqma15pup715pu",
     "se15lipb15mms615mrn715ovm215lun415mhp015mig015mkpa15mvi315nhk915nko915npsa15ntv415ogmf15ovi6",
     "15okue15pgi315pjka15lih715liq315lkrd15ngs815oos215oqqa15lus915lvv515mjnb15mrqe15nsje15njn515",
     "kuu415lmv915lru715ltra15mghc15njr215nkm915nvpa15ogk615pij415pmv615pnk815poh815kvob15npqe15ph",
     "r415pmr815mgu115kuo615lgta15lrue15lsjf15mlp915mqg215nhse15nmk215okvc15pgnc15pvod15mmo815pmie",
     "15lio915mnnb15mnv315mtk115mupc15nkg915nll915nomb15nth015pole15lhmd15miie15pmn815lgib15lth915",
     "mtua15ovia15lvob15mhk415moh715njo715pmo615lii915lkgf15lsm515mmh315mnke15moq815msu515nkg615nl",
     "u215nvn915oosf15oou115phsc15pmu215ljjf15mura15lkhd15nht015nkp815olva15pmq315psl715pupf15mnp7",
     "15mtsb15ohu815nqsb15nri015nsp215nis015ngp915orl815kus015ojj615lija15lig715luq615mit315nst615",
     "lro515mthe15mmr415ovjb15ookc15pmkd15opob15lut315lhk015lls02015lola1015mmn42015lhte15njia15nm",
     "sa15npjc15nple15npm515npof15pnl615nsre15nvrd1015omh21015oqv82015pgj815pgvd3015pouf15povc15pp",
     "i815ptr415pgte15pmr715kvqe15lgu715lhkd15lis915liu415ljl115llpd15lmg615lmm815lok015loq815lsm4",
     "15lsme15mgp415mhm815mhoe15mhv215mlkf15mlu215mmp115moo515mtn715muha15mvi215nhme15niib15nki215",
     "nop115npje15npk915npk815npl015npl615npld15npod15npoe15nqk015nqo115nrs015ntv415nug915nuk115nv",
     "n215ogg515ohud25oin915okl715oph015opp615org115orj915ost315otg815ovr615pgj815pmu315pnvf15pojb",
     "15mgn515ikiue15oih82315kui615lhr515lhm815kvo015lhk515lho015lis715liva15llpd15lll515llp915llu",
     "215lola15lor315lpk415lpl415lqm215lri815lut215lut915lvm915lvqd15mgt815mhke15mhg815mhoe15mhm01",
     "5mhv215mij415mjs415mkhc15mkl215mll615mmn415mnh715mnhb15mnl615mrn915mrra15mtk115mutb15musb15m",
     "vi215nghe15nhme15nnq715nij515niqf15njia15nkn115nlg615nljb15nmhd15nmhf15nmsa15nmtb15nmv415nnk",
     "a15nnk015nosc15nqr115nrs015nsnb15ntlb15ntv415nvje15ogg515ojl215ojuf15onn915opk115opo615opp61",
     "5oqrf15oqv815oqsb15org115oqve15oqud15orj915oroa15otg815ovj815pgn215php915pin615pmnc15pmu315p",
     "nl615pntb15pnvf15pogb15pojb15prh215pvpc15iioka15iiok415ijjt515jrpd15kgh815kgj915ilik915ilst0",
     "15inut315pvk315pvoei6316m6m616m6m916m6mc17m6m6m917m6m6mc26n3n4c316ln4ln616ln4lm516ln4lmb16ln",
     "eln616ln4lmd5316lt9lr41016lv2lr715lu215lt015lt315lt415ltb15ltc15ltd15lu815lua15ib16lu9ls116l",
     "u9ls217lu9lrcls117lu9lrcls216lt0lr716lt0lr816lt0lrc16lt1lrc16lt2lrc16lt3lrc16lt4lrc16lt5lrc1",
     "6lt6lrc1316lt8lrc16lt9lrc16ltalrc16ltblrc16ltclrc1316ltelrc1316lu0lrc16lu1lrc1316lu3lrc16lu4",
     "lrc1316lu6lrc16lu7lrc16lu8lrc16lu9lrc16lualrc16lt5lr916lt1lrf16ltblrf16lu4lrf16lt0ltc25mn145",
     "mnb45mne45mo045mna45mnf45mn945mq445mq645mo445mo345mo645mo725mod25moc25moe25mo825mp825mp145mq",
     "945mqf45mr345mr125mra45mrb25ms045ms145mre25mt225mt3i1045mqd25ms725ms625ms816ms7mn425msb25ms5",
     "25ms945mt025mk926mi6mi726mi6mt526mi6mk826mi6ms726mi6ms626mi6ms836mi6mt036mi6mk945msc16mi6mic",
     "16mi6mid16mi6mk516mi6mk916mi6mka16mi8mic16mi8mid16mi8mie16mi8mk516mi8mk916mi8mka16miamic16mi",
     "amid16miamie16miamk516miamk916miamka16mibmic16mibmk516mibmk916mibmka16micmid16micmk516midmic",
     "16midmk516miemic16miemid16miemk516mj3mic16mj3mid16mj3mie16mj3mk516mj5mid16mj5mk516mj6mic16mj",
     "6mid16mj6mie16mj6mk516mj7mid16mj7mk516mj8mk516mj9mic16mj9mk516mjamic16mjamk516mk1mic16mk1mid",
     "16mk1mie16mk1mk516mk1mk916mk1mka16mk2mid16mk2mk516mk2mk916mk2mka16mk3mi716mk3mic16mk3mid16mk",
     "3mie16mk3mk416mk3mk516mk3mk916mk3mka16mk4mic16mk4mid16mk4mie16mk4mk516mk4mk916mk4mka16mk5mic",
     "16mk5mid16mk5mie16mk5mk516mk5mk916mk5mka16mk6mic16mk6mid16mk6mie16mk6mk516mk6mk916mk6mka16mk",
     "7mic16mk7mk516mk7mk916mk7mka16mkamic16mkamid16mkamie16mkamk516mkamk916mkamka16mj0mn016mj1mn0",
     "16mk9mn017i0mkcml117i0mkdml117i0mkeml117i0mkfml117i0ml0ml117i0ml1mn016mi6mj116mi6mj216mi6mk5",
     "16mi6mk616mi6mk916mi6mka16mi8mj116mi8mj216mi8mk516mi8mk616mi8mk916mi8mka16miamj116miamj216mi",
     "amk516miamk616miamk916miamka16mibmj116mibmj216mibmk516mibmk616mibmk916mibmka16mk1mk916mk1mka",
     "16mk2mk916mk2mka16mk3mi716mk3mk416mk3mk516mk3mk916mk3mka16mk4mk516mk4mk916mk4mka16mk5mi716mk",
     "5mk516mk6mj116mk6mj216mk6mk516mk6mk616mk6mk916mk6mka16mk9mn016mkamj116mkamj216mkamk516mkamk6",
     "16mkamk916mkamka16mi6mic16mi6mid16mi6mie16mi6mk516mi6mk716mi8mic16mi8mid16mi8mie16mi8mk516mi",
     "8mk716miamic16miamid16miamie16miamk516miamk716mibmk516micmid16micmk516midmic16midmk516miemic",
     "16miemk516mj3mic16mj3mid16mj3mie16mj3mk516mj5mid16mj5mie16mj5mk516mj6mic16mj6mid16mj6mie16mj",
     "6mk516mj7mid16mj8mk516mj9mic16mj9mk516mjamic16mjamk516mk1mic16mk1mid16mk1mie16mk1mk516mk2mid",
     "16mk2mk516mk3mic16mk3mid16mk3mie16mk3mk416mk3mk516mk4mic16mk4mid16mk4mie16mk4mk516mk4mk716mk",
     "5mic16mk5mid16mk5mie16mk5mk516mk6mic16mk6mid16mk6mie16mk6mk516mk6mk716mk7mic16mk7mk516mk7mn0",
     "16mkamic16mkamid16mkamie16mkamk516mkamk716mi6mk516mi6mk716mi8mk516mi8mk716miamk516miamk716mi",
     "bmk516mibmk716mj3mk516mj3mk716mj4mk516mj4mk716mk3mk416mk3mk516mk4mk516mk6mk516mk6mk716mkamk5",
     "16mkamk717mk0mkeml117mk0mkfml117mk0ml0ml116mj7mk916mj7mka16mj9mk916mj9mka16mjamk916mjamka16m",
     "j3mk916mj3mka16mj4mk916mj4mka16midmk916midmka16micmk916micmka16miemk916miemka16mj5mk916mj5mk",
     "a16mj6mk916mj6mka16mj4mic16mj4mid16mj4mie16mj4mk516mj4mj116mj3mj116mj5mj116mj6mj116mj7mk916m",
     "j7mka16mj9mk916mj9mka16mjamk916mjamka16mj3mk916mj3mka16mj4mk916mj4mka16midmk916midmka16micmk",
     "916micmka16miemk916miemka16mj5mk916mj5mka16mj6mk916mj6mka16mj4mic16mj4mid16mj4mie16mj4mk516m",
     "j4mj116mj3mj116mj5mj116mj6mj116mj4mic16mj4mid16mj4mie16mj4mk516mj3mk716mj4mk716mj7mk516mj3mi",
     "c16mj3mid16mj3mie16mj4mic16mj4mid16mj4mie16mj7mk516mj8mk526mi7mkbh2017miamicmk527miamidmic17",
     "miamidmk517miamiemk517miamk5mic17miamk5mid17miamk5mie27micmk5mid17midmk5mka17midmk5mk917mj3m",
     "idmic17mj3micmid17mj3micmk927mj3mk5mid17mj3mk5mic27mj3mk5mk527mj5midmid17mj5mk5mk527mj4midmk",
     "517mj4micmka27mj4mk5mie27mj4mk5mk517mj6midmk927mj6miemk527mj7mk5mid17mj7mk5mk517mj7mk5mka17m",
     "j9micmk527mj9mk5mk517mj9mk5mk917mjamk5mk517mjamk5mka17mjamk5mk927mk1miemk517mk2mk5mid17mk2mk",
     "5mk517mk4midmk517mk4midmka17mk4midmk927mk4micmic27mk4miemk527mk4mk5mid17mk5midmic17mk5midmk5",
     "17mk5midmka17mk5micmid17mk5micmk517mk5miemic17mk5miemk52017mk5micmie17mk7mk5mic17mk7mk5mk517",
     "mk6midmk517mk6midmk927mk6micmk517mk6micmk917mk6mk5mka17mk6mk5mk927mkamk5mk517mi8miemka17miam",
     "icmka17miamicmk917miamiemka17miamiemk917miamk5mka17miamk5mk917micmk5mka17micmidmk917micmk5mk",
     "917mj3miemk917mj5midmka17mj4midmka17mj6midmka17mk4micmka17mk4mk5mka17mkamidmka17mkamicmka17m",
     "kamk5mka17mk5mk5mka17mk2mk5mka17mk6midmka17mk2mk5mid17mk4midmk517mj9mk5mka17mk3mk5mka17mk6mi",
     "cmid17mk5miemka17mk4micmk517mk3mk5mk517mk4micmk517mk6micmid17micmidmka17midmicmka17mk5micmka",
     "17mk1mk5mka17mi8midmka17mk3mk5mk517mj9micmk517mj5mk5mk517mj3miemka17mk6micmka80i0317mj5mk4mt",
     "217mk2mk4mt218mi7mk4mk4mk718mi7mk3mi8mj118mk5midmk5mif18mj5mk4mj9mk518mj1mj3mk8mk418mj9mk4mk",
     "amk718mk8mj3mk4mk517mj5mk4mk91h6mj5mk4mk9i0mi7mk4mk4mk7i0mj9mk4mkamk7i0mk8mj3mk4mk51cmicmk4i",
     "0micmk4mi7mk4mk718mj1mscmi7mk430h0215ic15jgg11315ja15jb15i115jf15jgh615jgh773h001315igh415ig",
     "h325lf15i815i915nb15nd15jgh415jgh515jgh015jgh115jgga15jggb15jgg815jgg915jggc15jggd15jgge15jg",
     "gf2015lb15ld46i0jg535lf15ic15jgg12315jb15ja15jf15i115igh415i815i915nb15nd15jgh415jgh515i315i",
     "615ia15ib15id15jc15je15jd1315lc15i415i515k04316i0mkb16mk0mkb16i0mkc1016i0mkd1316i0mke16mk0mk",
     "e16i0mkf16mk0mkf16i0ml016mk0ml016i0ml116mk0ml116i0ml216mk0ml215mi125mi225mi325mi425mi545mi62",
     "5mi745mi825mi945mia45mib45mic45mid45mie25mif25mj025mj125mj245mj345mj445mj545mj645mj745mj845m",
     "j945mja45mk145mk245mk345mk445mk545mk645mk725mk825mk945mka26mk4mi226mk4mi326mk4mi526mk4mi7231",
     "21315i115i215i315i415i515i615i715i815i915ia15ib15ic15id15ie15if15j015j115j215j315j415j515j61",
     "5j715j815j915ja15jb15jc15jd15je15jf15k015m115m215m315m415m515m615m715m815m915ma15mb15mc15md1",
     "5me15mf15n015n115n215n315n415n515n615n715n815n915na15lb15lc15ld15le15lf15m015m115m215m315m41",
     "5m515m615m715m815m915ma15mb15mc15md15me15mf15n015n115n215n315n415n515n615n715n815n915na15nb1",
     "5nc15nd15ne15ipo515ipo615ie15jggc15jggd15jgg115jgvb15jgv215jgq115jgq315jgq515jgq715jgq915jgu",
     "315jgu515jgu715jgs315jgvc15jgq215jgq415jgq615jgq815jgqa15jgqb15jgqd15jgqf15jgr115jgr315jgr51",
     "5jgr715jgr915jgrb15jgrd15jgrf15jgs115jgs415jgs615jgs815jgsa15jgsb15jgsc15jgsd15jgse15jgsf15j",
     "gt215jgt515jgt815jgtb15jgte15jgtf15jgu015jgu115jgu215jgu415jgu615jgu815jgu915jgua15jgub15jgu",
     "c15jgud15jguf15jgv315jgp915jgpa1215hhg015hhg115hhqa15hhg215hhqc15hhqd15hhg315hhg415hhg515hhr",
     "015hhr115hhr215hhr315hhr415hhr515hhha15hhg615hhg715hhg815hhi115hhg915hhga15hhgb15hhgc15hhgd1",
     "5hhge15hhgf15hhh015hhh115hhh23315hhm115hhm215hhm315hhm415hhm515hhm62315hhm715hhm815hhm915hhm",
     "a15hhmb15hhmc2315hhmd15hhme15hhmf15hhn015hhn115hhn22315hhn315hhn415hhn53315q215q315qc16i0jg4",
     "15q615q515igq91315ilg215ihp015ihp115ihp215ihp315ilq015ilsbh13c013ha013h30132013f023e0i23nb05",
     "33043id033l8013d03310if3ie0o23hd033j10f3hc043i4093he053ib053he013i5043e0ia315hgki815hgki915h",
     "gkia15hgkib15hgkic15hgkid15hgkie15hgkif15hgkj015hgkj115hgkj215hgkj315hgkj415hgkj515hgkj615hg",
     "kj715hgkj815hgkj915hgkja15hgkjb15hgkjc15hgkjd15hgkje15hgkjf15hgkk015hgkk115hgkk215hgkk315hgk",
     "k415hgkk515hgkk615hgkk715hgkk815hgkk915hgkka15hgkkb15hgkkc15hgkkd15hgkke15hgkkfn6023a06315hg",
     "kt815hgkt915hgkta15hgktb15hgktc15hgktd15hgkte15hgktf15hgku015hgku115hgku215hgku315hgku415hgk",
     "u515hgku615hgku715hgku815hgku915hgkua15hgkub15hgkuc15hgkud15hgkue15hgkuf15hgkv015hgkv115hgkv",
     "215hgkv315hgkv415hgkv515hgkv615hgkv715hgkv815hgkv915hgkva15hgkvb43i4043i8083j40b31015hglp715",
     "hglp815hglp915hglpa15hglpb15hglpc15hglpd15hglpe15hglpf15hglq015hglq11315hglq315hglq415hglq51",
     "5hglq615hglq715hglq815hglq915hglqa15hglqb15hglqc15hglqd15hglqe15hglqf15hglr015hglr11315hglr3",
     "15hglr415hglr515hglr615hglr715hglr815hglr91315hglrb15hglrc13b013f01370132033j40c3hj7093h60a3",
     "80h831015it015it115u615ip915il31315iq315qrm615iq515iq415il615il715htp115il815ile15iq915im415",
     "im215im015ipb15hi715ipc15im715io415iqa15iqb15imc15htvg415qnoe15ime15htvg515ioe15htvg615v815i",
     "n615in715n115ina15htvg815ind15ine15io015iq815iq615qrm715iq715io815isn11315iof15iq115iq215ip8",
     "15hs015hs115hs215htvga15htvhek5360231013ic01320331023h7013k808390j03h30132053i1033hb053hb0i6",
     "3j8043h4023j2013205380133013hd0233043a0739073k00i03i7043c093j6033hd023hb053ha07340c370l03k90",
     "j7315hgss015hgss115hgss215hgss315hgss415hgss515hgss615hgss715hgss815hgss915hgssa15hgssb15hgs",
     "sc15hgssd15hgsse15hgssf15hgst015hgst115hgst215hgst315hgst415hgst515hgst615hgst715hgst815hgst",
     "915hgsta15hgstb15hgstc15hgstd15hgste15hgstf15hgsu015hgsu115hgsu215hgsu315hgsu415hgsu515hgsu6",
     "15hgsu715hgsu815hgsu915hgsua15hgsub15hgsuc15hgsud15hgsue15hgsuf15hgsv015hgsv115hgsv2d3j3073i",
     "e083a063h0015hgtn015hgtn115hgtn215hgtn315hgtn415hgtn515hgtn615hgtn715hgtn815hgtn915hgtna15hg",
     "tnb15hgtnc15hgtnd15hgtne15hgtnf15hgto015hgto115hgto215hgto315hgto415hgto533hd08320t03hf013ia",
     "013302320h03608390i13ie083ia0h63ha0i63hc0h43h7093ke043i4093je01350d3h9073a063j5013h2083i7093",
     "m0013h40b3h2013if0je3701310134013f013b063jb053a063401380232023h6013701320135013a023202330231",
     "06310537023703350b3a01310231013i6013a013102310134013a013208320hd3lc01350he3k8083a0q63j6023i6",
     "0i23k50b3a063d0h33ja063a063h40hc3hb023f043h70r93jc0m4315hhos015hhos115hhos215hhos315hhos415h",
     "hos515hhos615hhos715hhos815hhos915hhosa15hhosb15hhosc15hhosd15hhose15hhosf15hhot015hhot115hh",
     "ot215hhot315hhot415hhot515hhot615hhot715hhot815hhot915hhota15hhotb15hhotc15hhotd15hhote15hho",
     "tfj30c38023102380132013he0132023c093a0k638023ie023b0hb3k8083l30d3k9073a0l6380l83i20e3a063901",
     "3id013e0a3hd033i0023h6013e0k9370132013ic033101320139083a06360132013i501320136073a063ic043a0v",
     "63h9073h1013i9033hd0l5310f3j20d3jpb0m63mf01350b3s40qkc3m30d3kj00h03h60a3vpb053ik70hqr93ja0ms",
     "63ij9073hf013a043l1013a063he02360a3k60a3a0137013h5053h30hr03ja0s6315hmum015hmum115hmum215hmu",
     "m315hmum415hmum515hmum615hmum715hmum815hmum915hmuma15hmumb15hmumc15hmumd15hmume15hmumf15hmun",
     "015hmun115hmun215hmun315hmun415hmun515hmun615hmun715hmun815hmun915hmuna15hmunb15hmunc15hmund",
     "15hmune15hmunfjb05315hmurb15hmurc15hmurd15hmure15hmurf15hmus015hmus115hmus215hmus315hmus415h",
     "mus515hmus615hmus715hmus815hmus915hmusa15hmusb15hmusc15hmusd15hmuse15hmusf15hmut015hmut115hm",
     "ut215hmut323h90ic3kb043j9073h10k0350b37093hst60i93i00m13n30ihvd3401370132013hi30f310hd330231",
     "0e34083hoc0pg43mb053d0339073a0234042vlc3t6015m115m215m315m415m515m615m715m815m915ma15mb15mc1",
     "5md15me15mf15n015n115n215n315n415n515n615n715n815n915na15j015j115j215j315j415j515j615j715j81",
     "5j93033hr4063h70f3h10f3ie023h7093n40jc3v60a3i7023j5016hthl7hthm516hthl8hthm517hthl8hthm5hthm",
     "e17hthl8hthm5hthmf17hthl8hthm5hthn017hthl8hthm5hthn117hthl8hthm5hthn2e082k0016hthr9hthm516ht",
     "hrahthm517hthr9hthm5hthme17hthrahthm5hthme17hthr9hthm5hthmf17hthrahthm5hthmfia0h53k60na3h40c",
     "3h40c3l7093h90o7315m115m215m315m415m515m615m715m815m915ma15mb15mc15md15me15mf15n015n115n215n",
     "315n415n515n615n715n815n915na15m115m215m315m415m515m615m715m815m915ma15mb15mc15md15me15mf15n",
     "015n115n215n315n415n515n615n715n815n915na15m115m215m315m415m515m615m715m815m915ma15mb15mc15m",
     "d15me15mf15n015n115n215n315n415n515n615n715n815n915na15m115m215m315m415m515m615m71315m915ma1",
     "5mb15mc15md15me15mf15n015n115n215n315n415n515n615n715n815n915na15m115m215m315m415m515m615m71",
     "5m815m915ma15mb15mc15md15me15mf15n015n115n215n315n415n515n615n715n815n915na15m115m215m315m41",
     "5m515m615m715m815m915ma15mb15mc15md15me15mf15n015n115n215n315n415n515n615n715n815n915na15m11",
     "315m315m42315m72315ma15mb2315me15mf15n015n11315n315n415n515n615n715n815n915na15m115m215m315m",
     "41315m61315m815m915ma15mb15mc15md15me1315n015n115n215n315n415n515n615n715n815n915na15m115m21",
     "5m315m415m515m615m715m815m915ma15mb15mc15md15me15mf15n015n115n215n315n415n515n615n715n815n91",
     "5na15m115m215m315m415m515m615m715m815m915ma15mb15mc15md15me15mf15n015n115n215n315n415n515n61",
     "5n715n815n915na15m115m21315m415m515m615m72315ma15mb15mc15md15me15mf15n015n11315n315n415n515n",
     "615n715n815n91315m115m215m315m415m515m615m715m815m915ma15mb15mc15md15me15mf15n015n115n215n31",
     "5n415n515n615n715n815n915na15m115m21315m415m515m615m71315m915ma15mb15mc15md1315mf3315n315n41",
     "5n515n615n715n815n91315m115m215m315m415m515m615m715m815m915ma15mb15mc15md15me15mf15n015n115n",
     "215n315n415n515n615n715n815n915na15m115m215m315m415m515m615m715m815m915ma15mb15mc15md15me15m",
     "f15n015n115n215n315n415n515n615n715n815n915na15m115m215m315m415m515m615m715m815m915ma15mb15m",
     "c15md15me15mf15n015n115n215n315n415n515n615n715n815n915na15m115m215m315m415m515m615m715m815m",
     "915ma15mb15mc15md15me15mf15n015n115n215n315n415n515n615n715n815n915na15m115m215m315m415m515m",
     "615m715m815m915ma15mb15mc15md15me15mf15n015n115n215n315n415n515n615n715n815n915na15m115m215m",
     "315m415m515m615m715m815m915ma15mb15mc15md15me15mf15n015n115n215n315n415n515n615n715n815n915n",
     "a15m115m215m315m415m515m615m715m815m915ma15mb15mc15md15me15mf15n015n115n215n315n415n515n615n",
     "715n815n915na15m115m215m315m415m515m615m715m815m915ma15mb15mc15md15me15mf15n015n115n215n315n",
     "415n515n615n715n815n915na15m115m215m315m415m515m615m715m815m915ma15mb15mc15md15me15mf15n015n",
     "115n215n315n415n515n615n715n815n915na15m115m215m315m415m515m615m715m815m915ma15mb15mc15md15m",
     "e15mf15n015n115n215n315n415n515n615n715n815n915na15m115m215m315m415m515m615m715m815m915ma15m",
     "b15mc15md15me15mf15n015n115n215n315n415n515n615n715n815n915na15m115m215m315m415m515m615m715m",
     "815m915ma15mb15mc15md15me15mf15n015n115n215n315n415n515n615n715n815n915na15m115m215m315m415m",
     "515m615m715m815m915ma15mb15mc15md15me15mf15n015n115n215n315n415n515n615n715n815n915na15hj115",
     "ij72315jr115jr215jr315jr415jr515jr615jr715jr815jr915jra15jrb15jrc15jrd15jre15jrf15js015js115",
     "jr815js315js415js515js615js715js815js915iig715jr115jr215jr315jr415jr515jr615jr715jr815jr915j",
     "ra15jrb15jrc15jrd15jre15jrf15js015js125js315js415js515js615js715js815js915iig215jr515jr815jr",
     "a15js615js115js015jr115jr215jr315jr415jr515jr615jr715jr815jr915jra15jrb15jrc15jrd15jre15jrf1",
     "5js015js115jr815js315js415js515js615js715js815js915iig715jr115jr215jr315jr415jr515jr615jr715",
     "jr815jr915jra15jrb15jrc15jrd15jre15jrf15js015js125js315js415js515js615js715js815js915iig215j",
     "r515jr815jra15js615js115js015jr115jr215jr315jr415jr515jr615jr715jr815jr915jra15jrb15jrc15jrd",
     "15jre15jrf15js015js115jr815js315js415js515js615js715js815js915iig715jr115jr215jr315jr415jr51",
     "5jr615jr715jr815jr915jra15jrb15jrc15jrd15jre15jrf15js015js125js315js415js515js615js715js815j",
     "s915iig215jr515jr815jra15js615js115js015jr115jr215jr315jr415jr515jr615jr715jr815jr915jra15jr",
     "b15jrc15jrd15jre15jrf15js015js115jr815js315js415js515js615js715js815js915iig715jr115jr215jr3",
     "15jr415jr515jr615jr715jr815jr915jra15jrb15jrc15jrd15jre15jrf15js015js125js315js415js515js615",
     "js715js815js915iig215jr515jr815jra15js615js115js015jr115jr215jr315jr415jr515jr615jr715jr815j",
     "r915jra15jrb15jrc15jrd15jre15jrf15js015js115jr815js315js415js515js615js715js815js915iig715jr",
     "115jr215jr315jr415jr515jr615jr715jr815jr915jra15jrb15jrc15jrd15jre15jrf15js015js125js315js41",
     "5js515js615js715js815js915iig215jr515jr815jra15js615js115js025jtd2315j015j115j215j315j415j51",
     "5j615j715j815j915j015j115j215j315j415j515j615j715j815j915j015j115j215j315j415j515j615j715j81",
     "5j915j015j115j215j315j415j515j615j715j815j915j015j115j215j315j415j515j615j715j815j9ioc0f3501",
     "3f0kl03hf06360t537013h102370132013505315kj015kj115kj215kj315kj415kj515kj615kj715kj815kja15kj",
     "b15kjc15kje15kjf15kk015kk115kk215kk315kk415kk515kk615kk715kk815kkb15kkd15kke15qmo915kt915kl6",
     "15kl815ku915kqf15ksf15kj015kj115kj215kj315kj415kj515kj615kj715kj815kja15kjb15kje15kjf15kk115",
     "kk315kk415kk515kk615kk715kk815kka15kkb15kp115kl615kl515klf15kqb15qml115kr1i1310n03id033e023a",
     "04320hk03hf0h13ja05310ht03ia0t63ib04310s03hf013h608320u03701340132013f013s5023h00i9315hupi21",
     "5hupi315hupi415hupi515hupi615hupi715hupi815hupi915hupia15hupib15hupic15hupid15hupie15hupif15",
     "hupj015hupj115hupj215hupj315hupj415hupj515hupj615hupj715hupj815hupj915hupja15hupjb15hupjc15h",
     "upjd15hupje15hupjf15hupk015hupk115hupk215hupk3ia043a04320jh13k40kc3jd0s2315mi715mi815mic15mi",
     "f1315mk815mj215mid15mj715mka15mk315mk415mk515mk615mj315mj915mk115mj515mk215mj115mj415mia15mi",
     "b15mie15mj015mj615mj815mja15mme15mra15mq115mmf1315mi815mic1315mk72315mid1315mka15mk315mk415m",
     "k515mk615mj315mj915mk115mj515mk21315mj415mia15mib15mie1315mj61315mja6315mic4315mid1315mka131",
     "5mk41315mk615mj315mj91315mj515mk21315mj42315mie1315mj61315mja1315mra1315mmf1315mi815mic1315m",
     "k72315mid15mj715mka15mk31315mk515mk615mj315mj915mk115mj515mk21315mj415mia15mib15mie1315mj615",
     "mj815mja15mme1315mq11315mi715mi815mic15mif15mk715mk815mj215mid15mj715mka1315mk415mk515mk615m",
     "j315mj915mk115mj515mk215mj115mj415mia15mib15mie15mj015mj615mj815mja5315mi815mic15mif1315mk81",
     "5mj215mid15mj715mka1315mk415mk515mk615mj315mj915mk115mj515mk215mj115mj415mia15mib15mie15mj01",
     "5mj615mj815mjaj4320hge3ic043m40c3f023f013f013i50b316j0ic16j1ic16j2ic16j3ic16j4ic16j5ic16j6ic",
     "16j7ic16j8ic16j9ic5017i8m1i917i8m2i917i8m3i917i8m4i917i8m5i917i8m6i917i8m7i917i8m8i917i8m9i9",
     "17i8mai917i8mbi917i8mci917i8mdi917i8mei917i8mfi917i8n0i917i8n1i917i8n2i917i8n3i917i8n4i917i8",
     "n5i917i8n6i917i8n7i917i8n8i917i8n9i917i8nai917jgh4n3jgh515m315n216m3m416n7na1015m115m215m315",
     "m415m515m615m715m815m915ma15mb15mc15md15me15mf15n015n115n215n315n415n515n615n715n815n915na16",
     "m8n616mdn616n3m416n3n317n0n0n616n7m3ha016mdm316mdm416mdn2i3016m4mahd0j83ha016jgnbjgkb16jgr3j",
     "gr315jgr5d315mikb15lrl715ljsc15jgs715kuoc15lpha15opu315lpi915kuq415mmi015nhi115mlp915likd15l",
     "voc15lhod15mlr015lihd15ntk215nlhf15osq915lov015lkj915mvh415mip515mjl515kug015kug915pgka15ltu",
     "615kuid15ljv315mjg715otn015mil315npo115nqna15lkg815muo015mng915mng815nlj315lin215llr615phkd4",
     "317jgh4mnicjgh517jgh4kug9jgh517jgh4kuocjgh517jgh4lro9jgh517jgh4ngr9jgh517jgh4mil3jgh517jgh4n",
     "mt7jgh517jgh4litdjgh517jgh4mll7jgh57315lvp715ljufe360pa3jt9033h1033d033ta063c04310f3c043j808",
     "3a063i8083he023c04320e390i73hl8083e023d033b033j90131043h0023c043a073p3013lc015j015j115j215j3",
     "15j415j515j615j715j815j910kg53qmu00i03hhhe023hmoe023htj10f3ime0pq2315kujd15kuj815kuk115ighi2",
     "15kvm015kvqe15kvrb15lgg215lgna15lgp915lgu715lgsf15jkpe15igmja15lhkd15lhl415lhm415lhn715iglhc",
     "15jkr915lhm715lhod15iglkb15lhp715lhq415kusc15lhqc15lhr515iphtf15lhv515lig315jktf15lijb15lik6",
     "15lin215lin715jlh515lis715lis915liu415liva15ljg515ljg615ljh715ljk915ljl115ljla15ljn315ljnd35",
     "ljnf15igqic15ngn015ljsa15ljtf15igrm315ljub15ljv115lkg615lkpe15lkj815lkk815lkm815lkq215lkv615",
     "llh015lll315llm325llo415llp915llqb15llr315lls215lnh615lmg615lnh715lml115lmn415lig715loue15ln",
     "se15lnv415logd15lnob15loj215loj115loqc15ihku415lov215lov715lpg615lpha15lpi215lpm215ihmq815ih",
     "mua15lpuc15lqhb15lqi715lpt815lqm615jmue15jmvc15lrg825lrje15ihps815lrs315lrt815lru715lrv315ih",
     "rh815lrvf15lsg615lvl315lsi215jno115lsm015lsme15lss015lsod15ihtu415ltk315ihtu615ltme15ltmb15l",
     "tnc15ltu115ltu215joif15ltvd15lui815lujd15lum915jom215iiho315jonc15lur015lur315lur615lusa15iq",
     "jp215luve25iijj115oig125lvi215jos715ijir815imhta15lvm215lvmb15jou315lvpa15lvsd15lvt715lvv915",
     "mgo115jpja15jphc15mgp415iimt415mgs715mhk815mhkc15mhke15mhkc15mhna15mhoe15mhr215mhq415mhqf15m",
     "hte15mhv215mhv615mih015mihb15mild15mir115mit415mjl015iirgc15mjjd15mivc15mjm815mjo315mju415ii",
     "rv115mki215mjs515mjq915jqie15mkm915mkne15mkpd15mkn715jqmc15mlkf15mlmc15ijgga15mlu315mmv815mm",
     "k915jrh915mmp115jrg815jqu415lhp215lhp515mng015mmpc15ogqd15kjt915mnh715mnhb15mni115mnle15mnl3",
     "15ijjs315jrk915mnva15mno515mol215moo515ijkmd15mooe15mohf15mph415jrpd15mpk215mpq315mpua15mqq8",
     "15ijmq315mqtb15jsh815mri115ijoq715mrl415jske15mrn215mrpf15mrra15mrrb15ijqod15ihtgb15ijqva15m",
     "ske15ijsrc15msrf15mssd15msm715mth615mtje15mtn715mtk115mtm915mtn815mto515ijthe15mtj415muif15m",
     "ume15jtj315musb15mus715ijut115mtv915mvme15ijvle15ijvoe15mvs615ngj915nghe15nghb15jtp615ngka15",
     "ngnd15ngn715ngqd15igli515nhk515ikim315nhpc15ikjqb15nii815nij515nil015ikmg815nio015nip515iknj",
     "515ikoh415njna15njob15juqc15njq525jur815nkk715nklc15nkn115nko515nksa15jvhb15nli415iksj615nlj",
     "e15iksp215nln015iihpf15nmh015ikvq115ikvr815ilgk415jvvc15kgg815nmv415ilgv315ilgv215ilhh915ilh",
     "j315nnhe25nnhf15nnka15kgj915nnob15kgk615kgp615ilkhd15noke15nooc15nosc15kgu315ilmi615npl615il",
     "mpa15ilms515npof15npub15khif15nqk015nqka15nqkf15ilpnc25ilqq715nque15kig215ilrqb15nrs615nrs91",
     "5kii715ilso015nst215kiq015nsu815nsu315ntg015ilvo615ntm315kjg115nts715nug215nuk515kjj415imii8",
     "15imik715kjl915imit915nvna15imjje15nvp515nvva15ogg515imkta15imli315ogm015imlq815ogn015ijjlf1",
     "5kjt515ogr215ohg315kkgb15ohje15lqr515imnq715imnr515ijjp315ijjpc15oig115oig415ovpe15kkmb15oip",
     "115oiob15oipd15lir315oir115oir315oird15oiu615imrjc15oiu515ojhd15ojm315ojqd15oji315ojrd15oju7",
     "15okl715ojl315ojsa15ojsc15ojtc15imsj615imtmb15imst515klib15okv115okv315olh615injsa15olm415im",
     "vic15klld15klm115imvr115ingt215klmb15oml015omlc15omm715omm915omq915omo815onge15omu215onn915o",
     "ni815onmb15ono615klt715onu115oog115klv915oom015oom315inmm715oot715oote15kmj515oova15jkrb15in",
     "oqe15inpm615kmre15kms715oqq015oqud15oroa15osl515insq815osqb15oss115othb15otn715invif15igog41",
     "5otsb15otrc15otv015igote15out415ovj815iolt215iolud15pgp415pgv115phh115ionie15phhb15pij815pit",
     "715pit815pinc15pjv915pkh515iorva15plob15kpp515plr715iotn715kpu615pms315ltr215pni315iphk515ip",
     "iha15kqme15kqn615pnu015ipkga15kqr215ipkp625pogb15poi915iplr615pou215krj315ppi915ppq715pps215",
     "ppve15krse15iprj015prh215psk015psvd15ksse15ksud15ptm715iqgse15ksv815iqhg515iqige15iqip115pur",
     "b15ktl615puv915puve15pvg515pvgf15pvh615pvjb15iqmg0lu23hjkb053ihia0qsso63v02ivuh03"]

/-- Where the reading of packed statuses stands: before the length of a range, before its code,
or inside a mapping with the count of code points still to read and those read, last first. -/
inductive StatusReading where
  | length
  | code (len : Nat)
  | mapping (len left : Nat) (read : List Nat)

/-- The status of a code below 4. -/
def DomainStatus.ofCode : Nat → DomainStatus
  | 0 => .valid
  | 1 => .deviation
  | 2 => .ignored
  | _ => .disallowed

/-- The ranges of packed statuses, the next from `start`, pushed onto `acc`. -/
def domainRangesFrom : List Nat → Nat → StatusReading → Array Nat × Array DomainStatus →
    Array Nat × Array DomainStatus
  | [], _, _, acc => acc
  | n :: rest, start, .length, acc => domainRangesFrom rest start (.code n) acc
  | n :: rest, start, .code len, (starts, statuses) =>
    if n < 5 then
      let status := if n < 4 then DomainStatus.ofCode n else .mapped []
      domainRangesFrom rest (start + len) .length (starts.push start, statuses.push status)
    else domainRangesFrom rest start (.mapping len (n - 4) []) (starts, statuses)
  | n :: rest, start, .mapping len left read, (starts, statuses) =>
    if left ≤ 1 then
      let status := DomainStatus.mapped ((n :: read).reverse.map Char.ofNat)
      domainRangesFrom rest (start + len) .length (starts.push start, statuses.push status)
    else domainRangesFrom rest start (.mapping len (left - 1) (n :: read)) (starts, statuses)

/-- The statuses by ranges of code points. -/
def domainMappingTable : RangeTable DomainStatus :=
  let (starts, statuses) := domainRangesFrom (unpack domainMappingText) 0 .length (#[], #[])
  ⟨starts, statuses⟩

def domainStatus (n : Nat) : DomainStatus :=
  domainMappingTable.get .disallowed n

/-- What one character of a domain maps to; none when it is not allowed. -/
def mapDomainChar (c : Char) : Option (List Char) :=
  match domainStatus c.toNat with
  | .valid | .deviation => some [c]
  | .ignored => some []
  | .mapped cs => some cs
  | .disallowed => none

/-- The character stays as it is: it is valid or a deviation. -/
def isDomainValid (c : Char) : Bool :=
  match domainStatus c.toNat with
  | .valid | .deviation => true
  | _ => false

def mapDomain (cs : List Char) : Option (List Char) :=
  (cs.mapM mapDomainChar).map List.flatten

end XmlPointer.Location
