import XmlPointer.Unicode.Packed

/-! # Joining types

The joining type of a character says how a cursive script joins it to its neighbours: on both
sides, on one side, not at all, or transparently, letting its neighbours join across it. The
table gives the types of Unicode 17. -/
namespace XmlPointer.Unicode

/-- The joining types. -/
inductive JoiningType where
  | nonJoining
  | joinCausing
  | dualJoining
  | leftJoining
  | rightJoining
  | transparent
  deriving Repr, DecidableEq

/-- The type of a code in the table. -/
def JoiningType.ofCode : Nat → JoiningType
  | 1 => .joinCausing
  | 2 => .dualJoining
  | 3 => .leftJoining
  | 4 => .rightJoining
  | 5 => .transparent
  | _ => .nonJoining

/-- Runs of the type codes over all code points, packed. -/
def joiningText : String :=
  String.join
    ["qd015il20n05hh3075hg70id51015102510251015k80b5101530121044121412145244d211721422h55e02215341",
     "034h02h24i6214229412141214222410147520652025104524a0322012f0151415325442149214121412142214hb",
     "52014b234f22442141224322462i60b5h90i129560112015h8045109510351055h201452241214a2141234354012",
     "10421014122450h343112205214127095a234101422246214f210h8510i05j70151015408540153075a025hd015j",
     "a01540458015h4025ha0152025j90154025402520353015he0253015b025j9015405510254015h4025h60651015j",
     "a0152015104580157025b025he015jd015c015j20153015j70151035503510457025b025hd015ja0152015601550",
     "25h4025hc025j902540458015h4025hd015k801570351015la0152075c085m20152095b075k9025hb01510151015",
     "j70e51055102550b510i459015m6045106510252025h90254035h0045d01520256015f015irf035jr2035hd025he",
     "025he025k00251075801520b59015i90122011351015h00l92c025i221512n5035402590156035tb0252015ja015",
     "107510151015208560a52015j00ie520c5h4045j0015105510155015i8095c025i004520251035j8015102530151",
     "035ja0852025p803510d51075401560153025s60k05igb015101125ha055j10555065m00i15rve035od015m00i05",
     "iia045mb025nlt404510a5i0025l0025hh001530154015h90255015h30j2213l1025ha0h25d015i6085h90b5ie03",
     "5j001520452025i7015k306520252025c0158015if015j30151035202550251015ia0258015ue01520154015kvj0",
     "015iu10h05h00h05sf015v9035ig1015u2015p5055mo603510255045i80354015o00521410141024201354421352",
     "143214201425404214p00121412343214221412241214h704422hl1013i12141245k1055hjd025h5014221022j20",
     "65j003214h1210b53214hb04224c245ia0121022341012242214221012241240141213j5015j60f5i90152025a03",
     "5j104520257015jd035i40551085je015c025j4095a0452015lf0352015102560152015pd0153085h5025j902530",
     "15i50753055k6065d01510151015e025l508520351015h7015l4065101540251025ue04560251025hb025l508520",
     "151025ma015101520651015m5015101520451055hg30951025hg002510154015p004520254015i00a5i806520458",
     "01590652035ie0d51025s601510351015s907510651015l20h65207510251025na0653015102510751015k802530",
     "151015hlb025b025j405550151015h7015hkt50h1560f5iss80c53035ps0055jb075kh8015jf045l1015ksr80251",
     "045hilc0ie520h75ii003590h052075he045p4035nrb0j7540j258015e015h605510f5ll007510h1520751025105",
     "5m4015q0075hn7015jd045hvc045ve025v3015201570255015hta075i90k4285shmr5015he0m05o00v05ivuh00"]

def joiningTable : RangeTable JoiningType :=
  RangeTable.ofRuns JoiningType.ofCode (unpack joiningText)

def joiningType (c : Char) : JoiningType :=
  joiningTable.get .nonJoining c.toNat

end XmlPointer.Unicode
