import FragmentBuild.Entries
import Mathlib.Data.List.Induction
import Mathlib.Data.List.Perm.Basic
import Mathlib.Data.String.Basic
import Mathlib.Data.UInt

/-! Entries in the order of their keys. Sorting entries with distinct keys keeps them all, and what
comes out depends on nothing but which entries there are. Keys are compared character by character,
which is the order of the bytes that they are written with. -/
namespace FragmentBuild

def Ascends (entries : List (String × α)) : Prop := entries.Pairwise fun one other => one.1 < other.1

theorem mem_insertSorted_of {key : String} {value : α} {entry : String × α}
    {entries : List (String × α)} (member : entry ∈ insertSorted key value entries) :
    entry = (key, value) ∨ entry ∈ entries := by
  induction entries with
  | nil => simpa [insertSorted] using member
  | cons first rest ih =>
    rw [insertSorted] at member
    split at member
    · exact List.mem_cons.mp member
    · split at member
      · exact (List.mem_cons.mp member).imp_right (List.mem_cons_of_mem first)
      · rcases List.mem_cons.mp member with rfl | later
        · exact .inr List.mem_cons_self
        · exact (ih later).imp_right (List.mem_cons_of_mem first)

theorem Ascends.insertSorted {entries : List (String × α)} (ascends : Ascends entries)
    (key : String) (value : α) : Ascends (insertSorted key value entries) := by
  induction entries with
  | nil => exact List.pairwise_singleton _ _
  | cons first rest ih =>
    obtain ⟨least, later⟩ := List.pairwise_cons.mp ascends
    rw [FragmentBuild.insertSorted]
    split
    · next before =>
      refine List.pairwise_cons.mpr ⟨fun entry member => ?_, ascends⟩
      rcases List.mem_cons.mp member with rfl | member
      · exact before
      · exact lt_trans before (least entry member)
    · next notBefore =>
      split
      · next same => exact List.pairwise_cons.mpr ⟨fun entry member => same ▸ least entry member, later⟩
      · next apart =>
        refine List.pairwise_cons.mpr ⟨fun entry member => ?_, ih later⟩
        rcases mem_insertSorted_of member with rfl | member
        · exact lt_of_le_of_ne (not_lt.mp notBefore) (Ne.symm apart)
        · exact least entry member

theorem insertSorted_perm {entries : List (String × α)} {key : String} (value : α)
    (fresh : key ∉ entries.map Prod.fst) :
    (insertSorted key value entries).Perm ((key, value) :: entries) := by
  induction entries with
  | nil => exact .refl _
  | cons first rest ih =>
    obtain ⟨apart, later⟩ := not_or.mp (List.mem_cons.not.mp fresh)
    rw [insertSorted, if_neg apart]
    split
    · exact .refl _
    · exact ((ih later).cons first).trans (.swap ..)

theorem ascends_sortEntries (entries : List (String × α)) : Ascends (sortEntries entries) := by
  induction entries using List.reverseRecOn with
  | nil => exact .nil
  | append_singleton entries entry ih =>
    rw [sortEntries, List.foldl_append]
    exact ih.insertSorted _ _

theorem sortEntries_perm {entries : List (String × α)}
    (distinct : (entries.map Prod.fst).Nodup) : (sortEntries entries).Perm entries := by
  induction entries using List.reverseRecOn with
  | nil => exact .refl _
  | append_singleton entries entry ih =>
    rw [List.map_append, List.nodup_append] at distinct
    obtain ⟨earlier, -, apart⟩ := distinct
    have sorted := ih earlier
    have fresh : entry.1 ∉ (sortEntries entries).map Prod.fst := fun member =>
      apart _ ((sorted.map _).mem_iff.mp member) _ (List.mem_singleton.mpr rfl) rfl
    rw [sortEntries, List.foldl_append]
    exact ((insertSorted_perm entry.2 fresh).trans (sorted.cons _)).trans
      (List.perm_append_singleton _ _).symm

theorem Ascends.eq_of_perm {one other : List (String × α)} (first : Ascends one)
    (second : Ascends other) (same : one.Perm other) : one = other :=
  same.eq_of_pairwise (fun _ _ _ _ below above => absurd (lt_trans below above) (lt_irrefl _)) first
    second

theorem sortEntries_eq_of_perm {one other : List (String × α)} (same : one.Perm other)
    (distinct : (one.map Prod.fst).Nodup) : sortEntries one = sortEntries other := by
  have sorted := sortEntries_perm distinct
  have others := sortEntries_perm ((same.map Prod.fst).nodup_iff.mp distinct)
  exact (ascends_sortEntries one).eq_of_perm (ascends_sortEntries other)
    ((sorted.trans same).trans others.symm)

/-! ### The order of bytes -/

/-- One row of bytes becomes less than another before either ends. -/
inductive Below : List UInt8 → List UInt8 → Prop
  | here : low < high → Below (low :: lows) (high :: highs)
  | later : Below lows highs → Below (byte :: lows) (byte :: highs)

theorem Below.append (below : Below low high) (lows highs : List UInt8) :
    low ++ lows < high ++ highs := by
  induction below with
  | here less => exact List.Lex.rel less
  | later _ ih => exact List.Lex.cons ih

theorem below_of_nat {low high : Nat} {lows highs : List UInt8} (bounded : high < 256)
    (ordered : low < high ∨ low = high ∧ Below lows highs) :
    Below (UInt8.ofNat low :: lows) (UInt8.ofNat high :: highs) := by
  rcases ordered with less | ⟨rfl, later⟩
  · have fits (number : Nat) (small : number < 256) : (UInt8.ofNat number).toNat = number :=
      UInt8.toNat_ofNat_of_lt' small
    refine .here (UInt8.lt_iff_toNat_lt.mpr ?_)
    rwa [fits low (by omega), fits high bounded]
  · exact .later later

theorem utf8EncodeChar_below {c d : Char} (less : c < d) :
    Below (String.utf8EncodeChar c) (String.utf8EncodeChar d) := by
  have less : c.val.toNat < d.val.toNat := less
  have top : d.val.toNat < 0x110000 := by
    have valid := d.valid
    simp only [UInt32.isValidChar, Nat.isValidChar] at valid
    omega
  unfold String.utf8EncodeChar
  generalize c.val.toNat = low at *
  generalize d.val.toNat = high at *
  dsimp only
  split_ifs
  any_goals omega
  · exact below_of_nat (by omega) (.inl less)
  iterate 3 exact below_of_nat (by omega) (.inl (by omega))
  · have digits : low / 64 < high / 64 ∨ low / 64 = high / 64 ∧ low % 64 < high % 64 := by omega
    refine below_of_nat (by omega) (digits.imp (by omega) fun ⟨same, digits⟩ => ⟨by rw [same], ?_⟩)
    exact below_of_nat (by omega) (.inl (by omega))
  iterate 2 exact below_of_nat (by omega) (.inl (by omega))
  · have digits : low / 4096 < high / 4096 ∨ low / 4096 = high / 4096 ∧
        (low / 64 % 64 < high / 64 % 64 ∨ low / 64 % 64 = high / 64 % 64 ∧ low % 64 < high % 64) := by
      omega
    refine below_of_nat (by omega) (digits.imp (by omega) fun ⟨same, digits⟩ => ⟨by rw [same], ?_⟩)
    refine below_of_nat (by omega) (digits.imp (by omega) fun ⟨same, digits⟩ => ⟨by rw [same], ?_⟩)
    exact below_of_nat (by omega) (.inl (by omega))
  · exact below_of_nat (by omega) (.inl (by omega))
  · have digits : low / 262144 < high / 262144 ∨ low / 262144 = high / 262144 ∧
        (low / 4096 % 64 < high / 4096 % 64 ∨ low / 4096 % 64 = high / 4096 % 64 ∧
        (low / 64 % 64 < high / 64 % 64 ∨ low / 64 % 64 = high / 64 % 64 ∧
          low % 64 < high % 64)) := by
      omega
    refine below_of_nat (by omega) (digits.imp (by omega) fun ⟨same, digits⟩ => ⟨by rw [same], ?_⟩)
    refine below_of_nat (by omega) (digits.imp (by omega) fun ⟨same, digits⟩ => ⟨by rw [same], ?_⟩)
    refine below_of_nat (by omega) (digits.imp (by omega) fun ⟨same, digits⟩ => ⟨by rw [same], ?_⟩)
    exact below_of_nat (by omega) (.inl (by omega))

def bytesOf (text : String) : List UInt8 := text.toUTF8.data.toList

theorem bytesOf_eq (text : String) : bytesOf text = text.toList.flatMap String.utf8EncodeChar := by
  rw [bytesOf, String.toUTF8, ← String.utf8Encode_toList]
  exact List.toList_data_toByteArray

theorem bytesOf_lt {one other : String} (less : one < other) : bytesOf one < bytesOf other := by
  have less : one.toList < other.toList := less
  rw [bytesOf_eq, bytesOf_eq]
  generalize one.toList = low at less
  generalize other.toList = high at less
  induction less with
  | nil =>
    rename_i c rest
    cases bytes : String.utf8EncodeChar c with
    | nil => exact absurd bytes (by simp)
    | cons byte more => simp [bytes]
  | rel less => exact (utf8EncodeChar_below less).append _ _
  | cons _ ih =>
    rename_i c _ _ _
    rw [List.flatMap_cons, List.flatMap_cons]
    induction String.utf8EncodeChar c with
    | nil => exact ih
    | cons byte more same => exact List.Lex.cons same

theorem bytesOf_le_iff {one other : String} : bytesOf one ≤ bytesOf other ↔ one ≤ other := by
  constructor
  · intro below
    by_contra above
    exact below (bytesOf_lt (not_le.mp above))
  · intro below above
    rcases lt_or_eq_of_le below with less | rfl
    · exact List.lt_asymm above (bytesOf_lt less)
    · exact List.lt_irrefl _ above

end FragmentBuild
