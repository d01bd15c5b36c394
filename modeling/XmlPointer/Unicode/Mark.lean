import XmlPointer.Unicode.Packed

/-! # Marks

A mark (general category Mn, Mc or Me) combines with the character before it, so a label of a
domain may not begin with one. The table gives the marks of Unicode 17. -/
namespace XmlPointer.Unicode

/-- Runs over all code points, 1 for marks and 0 for other characters, packed. -/
def markText : String :=
  String.join
    ["jg00n01hh3071hg70id11011102110211091k00b1j00h51h0011m5071206120211041i3011he0hd1l90b1ja09190",
     "11h8041109110311071i9051j9091ia0h8110i11j603110h211071a021hd041j701110h0190516041h8071j70hd1",
     "h70213011b041j701110h21h2041h40b1j701110he16041hc011jb0h2170f1ha051j701110ha1a041hb031j80111",
     "0he16041d0h11j702110h019011a041hb041k50hc1c021jd01120b18081m20112091b081k8021hb0111011101140",
     "21j10h41102150j118011m40h41h70414031103120713041d0c11011a041irf031jr20d1h3031hd0e1h20e1j40i0",
     "19031ib0311011n5021i2011n60i01t7071j70ib1j00l51if0h11i6091c031he0d1j80h61i80h71p503110h51401",
     "160112031s60k01it00j01ruf031od011m00i01iia061m9021nlt404110a1i0021l0021hh001130114011h705140",
     "41l0021j20ha1h20h21d011i6081h90h81i1041if0e1i4011k30h7130118041ib031j20111031202150211011i90",
     "5150c1u20811041kvie011iu10h01h00h01jsd0o31m0011p50a1mo10f1i8081q5061ij90c1j9051hjd021kd061k6",
     "0b1j1041na031j50f1i90112021a041id0b170b1j3031i40f1f021ic011c031j00e180411021lc0c1601120jf1lf",
     "0h11h0051j602110h21706150he1j80h911011e0hf1j50h21h7011l10h41ub0h21hb0i41j00h11ma0d1m50h31vc0",
     "f1v50f110111021od0h0130hc110a1i80711041809110b1ie0h01s60m01mf0h11l20me1j10h511091ja0e1hlb041",
     "90211011j00f1h70l61hkp001160h91isre0h21ps0051jb071kh801110k21l10e1ksqb021him10l01ih505130618",
     "0812071he041p4031nrb0j7140j218011e011h60km51hg00j01lf0n11j0071hn70h21ic041hvc041ve021v301120",
     "1170215091ht20j01k4071shnr50vvg01iggg00"]

def markTable : RangeTable Bool :=
  RangeTable.ofRuns (· == 1) (unpack markText)

def isMark (c : Char) : Bool :=
  markTable.get false c.toNat

end XmlPointer.Unicode
