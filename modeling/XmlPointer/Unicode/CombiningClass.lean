import XmlPointer.Unicode.Packed

/-! # Canonical combining classes

The canonical combining class of a character orders the marks that follow a base character in a
canonical decomposition: marks of a lower nonzero class come first, and a character of class 0 is
a starter, which no mark is moved across. The table gives the classes of Unicode 17. -/
namespace XmlPointer.Unicode

/-- Runs of the combining classes over all code points, packed. -/
def combiningClassText : String :=
  String.join
    ["jg00h5u61u84tc1u81t85tc2sa4tc2sabtc514tc3u6201u6201v01u63tc3u62tc103u64tc1u61u82tc1u61u92ua1",
     "u92ua1u9du6hh305u6hg901tc4u61tc3u61te1tc6u66tc2u61tc2u61te1u41u61a1b1c1d1e1f1h01h11h22h31h41",
     "h51h6101h7101h81h9101u61tc109h2k008u61he1hf1i0j001hb1hc1hd1he1hf1i01i11i22u62tc5u61tc2u61tch",
     "001i3m507u6204u61tc1u6202u6101tc2u61tci301i4he01u61tc2u61tc2u63tc1u62tc1u61tc3u61tc1u61tc1u6",
     "1tc1u61tc4u6pe07u61tc1u6901tch804u6109u6103u6107u6i905tcj902u63tc4u6ia05u65tceu6101tc2u61tc2",
     "u61tc3u63tc1hb1hc1hd3u61tc2u62tc5u6jc017h0019301u61tc2u6m7017h0019j003u6jb027f049mb017h0039m",
     "c017h0089n8039mc017h00891l42lbm4017h0089m6029h0019nc059m902m759904mbmc02n619d04nakc02tchb01t",
     "c101tc101t8j701o11o2101o4504o2201o2102u619102u6je01tcn00171029l201tcisf03u6jr40b9h5019pd019a",
     "03u6s901u4of01te1u65tct701u61tck7019h40au61tcj005u66tc2u61tc102tc2u62tc5u61tch2u63tc6u61tc4u",
     "6h5uaj4017f019i601u61tc7u6j6029ja017b0a9jb047p503u610115tc2u64tc1u61071401tc601u6302u6s602u6",
     "1tc7u61tc2u61ua1t61tc1sai5u61u82u41tc1ta1u61u91tc1u61tcit002u6214u6312u6401u630211u61tc1u621",
     "4tch0u6ruf03u6od019m00i0u6iia01ta1u41u81te2u0m9028nlt401u640au6i002u6l002u6hh4019i5049p4019h",
     "b0h2u6j903tci50c9l4017c019uf01u6102u61tc202u6502u6101u6j40b9uc039kvie01hajg107u67tc2u6jsd0o3",
     "tcm001tcp50au6mod01tc101u6i801u6115tc19q501u65tcij90cu6j905u6hjd02u6kd02tc103tck602tc3u61tc1",
     "u64tcj101u61tc1u61tcs0019i9019e019j901917k503u6j0039jd017kc0199017ma01917r201769kb027h0039h6",
     "0hau6ke039n10193017h701u6m301917vb01917ne019n601917n3059hg901917hg20294017pc019l3019h2099k90",
     "19hq5019hg20171029l1019hq9029khuc019ps0051jb07u6kr9026ksqc011hks602t831301u25t8808tc205u62tc",
     "he04u6p403u6trb0j0u6lf0n1u6j007u6hn70h2u6ic04u6hvc02u81tc1u6ve01u61tcv301u6201u6702u6509u6ht",
     "20j0tck406u617vhmr50"]

def combiningClassTable : RangeTable Nat :=
  RangeTable.ofRuns id (unpack combiningClassText)

def combiningClassOf (n : Nat) : Nat :=
  combiningClassTable.get 0 n

def combiningClass (c : Char) : Nat :=
  combiningClassOf c.toNat

end XmlPointer.Unicode
