import FragmentBuild.Text.Quoted
import FragmentBuild.Text.Utf8

/-! Names and paths as the system has them: bytes, which need not be text. -/
namespace FragmentBuild

@[ext]
structure OsText where
  toList : List UInt8
  deriving DecidableEq, Repr, Inhabited

namespace OsText

@[coe]
def ofText (text : String) : OsText := ⟨text.toUTF8.data.toList⟩

instance : Coe String OsText := ⟨ofText⟩

instance : Append OsText := ⟨fun first second => ⟨first.toList ++ second.toList⟩⟩

@[simp]
theorem toList_append (first second : OsText) :
    (first ++ second).toList = first.toList ++ second.toList := rfl

theorem append_assoc (first second third : OsText) :
    first ++ second ++ third = first ++ (second ++ third) :=
  OsText.ext (List.append_assoc ..)

@[simp]
theorem toList_ofText_empty : (ofText "").toList = [] := rfl

theorem append_empty (name : OsText) : name ++ ofText "" = name :=
  OsText.ext (List.append_nil _)

def isEmpty (name : OsText) : Bool := name.toList.isEmpty

@[simp]
theorem isEmpty_iff (name : OsText) : name.isEmpty = true ↔ name.toList = [] := by simp [isEmpty]

def ofBytes (bytes : ByteArray) : OsText := ⟨bytes.data.toList⟩

def bytes (name : OsText) : ByteArray := ⟨⟨name.toList⟩⟩

def text? (name : OsText) : Option String := String.fromUTF8? name.bytes

theorem bytes_ofText (text : String) : (ofText text).bytes = text.toUTF8 := rfl

theorem text?_eq_some_iff {name : OsText} : name.text? = some text ↔ name = ofText text := by
  constructor
  · intro known
    unfold text? String.fromUTF8? at known
    split at known
    · cases known
      rfl
    · contradiction
  · rintro rfl
    have valid : text.toUTF8.IsValidUTF8 := text.isValidUTF8
    rw [text?, bytes_ofText, String.fromUTF8?, dif_pos valid]
    rfl

@[simp]
theorem text?_ofText (text : String) : (ofText text).text? = some text := text?_eq_some_iff.mpr rfl

theorem ofText_append (first second : String) :
    ofText (first ++ second) = ofText first ++ ofText second := by
  have bytes : (first ++ second).toUTF8.data.toList =
      first.toUTF8.data.toList ++ second.toUTF8.data.toList := by simp
  rw [ofText, bytes]
  rfl

theorem ofText_inj : ofText first = ofText second ↔ first = second :=
  ⟨fun same => Option.some.inj ((text?_ofText first).symm.trans
    (same ▸ text?_ofText second)), congrArg ofText⟩

theorem toList_ofList (letters : List Char) :
    (ofText (String.ofList letters)).toList = letters.flatMap String.utf8EncodeChar :=
  List.toList_data_toByteArray

/-- The byte of an ASCII character stands in a text for this character only. -/
theorem mem_utf8EncodeChar_iff {c d : Char} (ascii : c.toNat < 128) :
    c.toUInt8 ∈ String.utf8EncodeChar d ↔ d = c := by
  have known : c.toUInt8.toNat = c.toNat :=
    Nat.mod_eq_of_lt (by rw [Char.toNat_val]; omega)
  have same : d = c ↔ d.toNat = c.toNat := by
    rw [Char.ext_iff, ← UInt32.toNat_inj]
    rfl
  rw [String.utf8EncodeChar, same, Char.toNat_val]
  repeat' split
  all_goals
    simp only [List.mem_cons, List.not_mem_nil, or_false, ← UInt8.toNat_inj, known,
      UInt8.toNat_ofNat']
    omega

theorem mem_toList_ofText {c : Char} (ascii : c.toNat < 128) (text : String) :
    c.toUInt8 ∈ (ofText text).toList ↔ c ∈ text.toList := by
  rw [← text.ofList_toList, toList_ofList, List.mem_flatMap, String.toList_ofList]
  simp [mem_utf8EncodeChar_iff ascii]

theorem toList_ofText_eq_nil_iff : (ofText text).toList = [] ↔ text = "" := by
  rw [← ofText_inj, OsText.ext_iff, toList_ofText_empty]

/-- How it is shown. Bytes that are no text show as replacement characters. -/
def shown (name : OsText) : String := textOf name.bytes

@[simp]
theorem shown_ofText (text : String) : (ofText text).shown = text := by
  have known : String.fromUTF8? (ofText text).bytes = some text := text?_ofText text
  rw [shown, textOf, known]
  rfl

abbrev IsText (name : OsText) : Prop := name.text?.isSome = true

theorem isText_iff {name : OsText} : name.IsText ↔ ∃ text, name = ofText text := by
  simp only [IsText, Option.isSome_iff_exists, text?_eq_some_iff]

theorem isText_ofText (text : String) : (ofText text).IsText := isText_iff.mpr ⟨text, rfl⟩

theorem IsText.append {first second : OsText} (isText : first.IsText) (isTextToo : second.IsText) :
    (first ++ second).IsText := by
  obtain ⟨text, rfl⟩ := isText_iff.mp isText
  obtain ⟨more, rfl⟩ := isText_iff.mp isTextToo
  rw [← ofText_append]
  exact isText_ofText _

theorem ofText_shown {name : OsText} (isText : name.IsText) : ofText name.shown = name := by
  obtain ⟨text, rfl⟩ := isText_iff.mp isText
  rw [shown_ofText]

def quotedByte (byte : UInt8) : List Char := ['\\', 'x'] ++ paddedDigits 16 2 byte.toNat

/-- In quotes, with an escape for each byte that is no text. -/
def quoted (name : OsText) : String :=
  String.ofList ('"' :: (decode name.toList).flatMap
    (Sum.elim (fun bytes => bytes.flatMap quotedByte) quotedChar) ++ ['"'])

end OsText

end FragmentBuild
