import GatedLog.Rejection
import GatedLog.Proofs.Text.Figures
import GatedLog.Proofs.Text.Prefixes

/-!
# The wording of rejections

A rejection says what kind of thing was rejected, and shows it. None of the four ways to begin is the
beginning of another one, and what is shown determines what was rejected, codes included: no two
rejections are worded alike (`message_injective`). The code of a component is shown in hexadecimal, as
the word of its two's complement (`componentCode_shows`), and that of a severity in decimal
(`severityCode_shows`); either can be read back.
-/

namespace GatedLog

namespace Text

/-- The word of 32 bits that stands for an integer. -/
def twosComplement (n : Int32) : Nat := (if n.toInt < 0 then 2 ^ 32 + n.toInt else n.toInt).toNat

theorem toNat_toUInt32 (n : Int32) : n.toUInt32.toNat = twosComplement n := by
  have hsign := n.toBitVec.toInt_eq_toNat_cond
  rw [Int32.toInt_toBitVec, Int32.toNat_toBitVec] at hsign
  have hword := n.toUInt32.toNat_lt
  unfold twosComplement
  split at hsign <;> split <;> omega

theorem ofNat_twosComplement (n : Int32) : Int32.ofNat (twosComplement n) = n := by
  rw [← toNat_toUInt32, ← Int32.toNat_toBitVec, Int32.ofNat_bitVecToNat]
  rfl

end Text

namespace Rejection

/-- What is rejected. -/
inductive Kind where
  | severityText
  | severityCode
  | componentText
  | componentCode
  deriving DecidableEq, Repr

/-- What stands in front of what is shown. -/
def Kind.opening : Kind → String
  | severityText => "unknown severity '"
  | severityCode => "severity code "
  | componentText => "unknown component '"
  | componentCode => "component code 0x"

/-- What stands behind it. -/
def Kind.closing : Kind → String
  | severityText => "'"
  | severityCode => " is out of range"
  | componentText => "'"
  | componentCode => " does not name a single component"

/-- The kind of what was rejected. -/
def kind : Rejection → Kind
  | unknownSeverity _ => .severityText
  | severityCode _ => .severityCode
  | unknownComponent _ => .componentText
  | componentCode _ => .componentCode

/-- What was rejected, as it is shown. -/
def shown : Rejection → String
  | unknownSeverity text => text
  | severityCode code => String.ofList (Text.decimal code.toInt)
  | unknownComponent text => text
  | componentCode code => String.ofList (Text.hexadecimal code.toUInt32.toNat)

theorem message_eq (why : Rejection) :
    why.message = why.kind.opening ++ why.shown ++ why.kind.closing := by
  cases why <;> rfl

theorem Kind.prefixFree_opening : PrefixFree fun k : Kind => k.opening.toList := by
  intro a b
  cases a <;> cases b <;> decide

theorem eq_of_shown {why why' : Rejection} (hkind : why.kind = why'.kind)
    (hshown : why.shown = why'.shown) : why = why' := by
  cases why with
  | unknownSeverity text =>
    cases why' with
    | unknownSeverity text' => exact congrArg unknownSeverity hshown
    | _ => cases hkind
  | severityCode m =>
    cases why' with
    | severityCode n =>
      have hdigits := Text.decimal_injective (String.ofList_injective hshown)
      exact congrArg severityCode (Int32.toInt_inj.mp hdigits)
    | _ => cases hkind
  | unknownComponent text =>
    cases why' with
    | unknownComponent text' => exact congrArg unknownComponent hshown
    | _ => cases hkind
  | componentCode m =>
    cases why' with
    | componentCode n =>
      have hdigits := Text.hexadecimal_injective (String.ofList_injective hshown)
      rw [Text.toNat_toUInt32, Text.toNat_toUInt32] at hdigits
      have hcode := congrArg Int32.ofNat hdigits
      rw [Text.ofNat_twosComplement, Text.ofNat_twosComplement] at hcode
      exact congrArg componentCode hcode
    | _ => cases hkind

/-- No two rejections are worded alike. -/
theorem message_injective : Function.Injective message := by
  intro why why' h
  rw [message_eq, message_eq] at h
  obtain ⟨hkind, hshown⟩ := Kind.prefixFree_opening.enclosed_inj h
  exact eq_of_shown hkind hshown

/-! ### The digits of codes -/

/-- The text shows the code of a component by the figures of its word, with no zero in front of them,
and they can be read back. -/
structure ShowsWord (text : String) (n : Int32) (ds : List Char) : Prop where
  text_eq : text = "component code 0x" ++ String.ofList ds ++ " does not name a single component"
  spells : Text.Spells 16 ds (Text.twosComplement n)
  trimmed : Text.Trimmed ds
  read : (Text.readHexadecimal ds).map Int32.ofNat = some n

/-- The text shows the code of a severity as an integer, which can be read back. -/
structure ShowsInteger (text : String) (n : Int32) (ds : List Char) : Prop where
  text_eq : text = "severity code " ++ String.ofList ds ++ " is out of range"
  shortest : Text.Shortest Text.Literal ds n.toInt
  read : Text.readInt32 ds = some n

theorem componentCode_shows (n : Int32) :
    ShowsWord (componentCode n).message n (Text.hexadecimal (Text.twosComplement n)) where
  text_eq := by rw [← Text.toNat_toUInt32]; rfl
  spells := Text.spells_toDigits (by decide) (by decide) _
  trimmed := Text.trimmed_toDigits (by decide) _
  read := by
    rw [Text.readHexadecimal_hexadecimal, Option.map_some, Text.ofNat_twosComplement]

theorem severityCode_shows (n : Int32) :
    ShowsInteger (severityCode n).message n (Text.decimal n.toInt) where
  text_eq := rfl
  shortest := Text.shortest_decimal n.toInt
  read := Text.readInt32_eq_some_iff.mpr (Text.literal_decimal n.toInt)

example : (componentCode 0).message = "component code 0x0 does not name a single component" := by
  decide

example : (componentCode Int32.minValue).message =
    "component code 0x80000000 does not name a single component" := by decide

end Rejection

end GatedLog
