import XmlPointer.Unicode.Packed

/-! # Bidirectional classes

The bidirectional class of a character says how it runs in text that mixes scripts written from
left to right and from right to left: strong letters of either direction, numbers and their
separators, marks, and neutrals. The table gives the classes of Unicode 17; the classes of the
characters new since Unicode 15 follow from their general category and the direction of their
block. -/
namespace XmlPointer.Unicode

/-- The bidirectional classes. -/
inductive BidiClass where
  | leftToRight
  | rightToLeft
  | arabicLetter
  | europeanNumber
  | europeanSeparator
  | europeanTerminator
  | arabicNumber
  | commonSeparator
  | nonspacingMark
  | boundaryNeutral
  | paragraphSeparator
  | segmentSeparator
  | whiteSpace
  | otherNeutral
  | leftToRightEmbedding
  | leftToRightOverride
  | rightToLeftEmbedding
  | rightToLeftOverride
  | popDirectionalFormat
  | leftToRightIsolate
  | rightToLeftIsolate
  | firstStrongIsolate
  | popDirectionalIsolate
  deriving Repr, DecidableEq

/-- The classes in the order of their codes in the table. -/
def BidiClass.all : List BidiClass :=
  [.leftToRight, .rightToLeft, .arabicLetter, .europeanNumber, .europeanSeparator,
    .europeanTerminator, .arabicNumber, .commonSeparator, .nonspacingMark, .boundaryNeutral,
    .paragraphSeparator, .segmentSeparator, .whiteSpace, .otherNeutral, .leftToRightEmbedding,
    .leftToRightOverride, .rightToLeftEmbedding, .rightToLeftOverride, .popDirectionalFormat,
    .leftToRightIsolate, .rightToLeftIsolate, .firstStrongIsolate, .popDirectionalIsolate]

def BidiClass.ofCode (n : Nat) : BidiClass :=
  BidiClass.all.getD n .leftToRight

/-- The class is written right to left, or is an Arabic number. -/
def BidiClass.isRightToLeft : BidiClass → Bool
  | .rightToLeft | .arabicLetter | .arabicNumber => true
  | _ => false

/-- Runs of the class codes over all code points, packed. -/
def bidiText : String :=
  String.join
    ["991b1a1b1c1ae93a1b1c2d355d14171427a3176dha06dha04d691aha9171d454d102d192d25231d103d13105dh70",
     "1dhf01dhs102d70ed20ed509d10h1dn08402d801d502d101dme01doc078hg005d25id81118112811281198j01662",
     "d12251217122db8j02h58a615263218m5278161d6822281d4822a3h7218he2hd8l92b8f2ib198214d3118h814811",
     "9811381178i915821j027698ia2h8816i08j70181018408840183078a028hd018ja01840686018h4048c02570152",
     "058j902830h88h70283018b028j901840884038h2048b0851088ja0182018106860a8b048hc018jd018c038i306d",
     "156d183018j7018103850h28a048h207d2018ja018f098d048ha028j902840587018h4048hb018k80583068l9018",
     "20b8157088m20182098b088k8028hb018101810184dj30e81058102850j188018m6048106810282028h90284038h",
     "0048d01820286018f018irf038j00h0dm001dinf01cha05dn2038hd028he0e8h20e8j40281078801820b87015103",
     "8h00hbd381918n5028i2018n60384028901860786dp80i2dh70282038j801810981018208860d8j00l48j0018105",
     "810185018b02dhb098b01d28i004820281038j8018102830181038ja0882058p503810d81078401860183028s60k",
     "08hrd01d103db03dd03dd05db03dbc391011h8d1c1a1e1h01h21f1h11755fd17had1c691h31h41h51h6691330632",
     "43d10a3244dh00j05j082d104d102da01d103d506d101d101d101d4015b02d405d504d20h0di90o9d1415hi2dk50",
     "had10v2dh43ke0hs2d10hl3dhg00jg0du506d4038707dnf018m00i08ig0d1c4d30h9d9048201d502d504dl80282d",
     "301dla01ds40j0did03dj00h0dhc03dj20fdc04dq704dm302dhf01dhps00k0dlmp00k0dhjd03dlf0481da82dhe02",
     "8l0028e0i2dm601dn901830184018h9028104d488085j40cdk40a8h20h28d018i6088h90b8ie038j001820482028",
     "i7018k3068202820b830188018if018j30181038202850281018ia02880b8m906dn501820184038kvid01118a114",
     "i61hue2h2dnf2i1dd23dh08h0dh08i0d171d271d179d152d245d255dof2292d355d14171427a3176dha06dha0bdn",
     "a0253d35h8dhg101dje0kdd30k0did0o38m0018hf3n60a8ko00hhf11du11f8i8188q5168ke17dhs01i42c8ha6hf1",
     "58v21i06ib128h51j8268j01h62b8hf2h2148na11018j60f8b0h4da0182028a038j1048202870b8j3038i4058109",
     "8jd018c028j4098a0482018lf03820181028601820jf8lf01830d8h0028j90283018i50ha8jb078c018101810181",
     "0ddhf8j808820381018h7018l4068101840281028ue06840281028hb0i48j308820181028hf0i0dib01810182068",
     "1018m503820481098vf0981028hg002810184018p00884018i00682028i80682048809810682038ie0d81028s601",
     "810381018na0fdk00e8l40h781078102810kb8j10h581098k003820181018hlb028b028j408820181018h70l68i5",
     "08d45hedhkk101860h98isre0c83038ps0058jb078ij603dhtf018jf048kf01d10c8ksqd02810vm09v0da0ig6dl0",
     "8ih70389089882078he048jb0l9d38nbdk00m0djnb01dj901dj901dj901dj901da0j23ig00j7840j288018e018h6",
     "0km58hg00j08lf0n18j0078hn70h28ic048f0ht15hc048ve028f0s1di3018201870285098hg20t01j08k4178ji61",
     "inf2ih0db35dhf01dja06djd0j9dna0pp0da3kg6dsggg10vf9vvg08iggg00"]

def bidiTable : RangeTable BidiClass :=
  RangeTable.ofRuns BidiClass.ofCode (unpack bidiText)

def bidiClass (c : Char) : BidiClass :=
  bidiTable.get .leftToRight c.toNat

end XmlPointer.Unicode
