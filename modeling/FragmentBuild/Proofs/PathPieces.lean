import FragmentBuild.Path
import Mathlib.Data.List.Induction

/-! Paths as the pieces between their slashes: how joining extends them, and how a path that
is put together from its components is written. -/
namespace FragmentBuild

theorem pieces_ne_nil (text : List UInt8) : pieces text ≠ [] := by
  cases text with
  | nil => simp [pieces]
  | cons c rest =>
    rw [pieces]
    split
    · simp
    · split <;> simp

theorem pieces_append_slash (front back : List UInt8) :
    pieces (front ++ slashByte :: back) = pieces front ++ pieces back := by
  induction front with
  | nil => simp [pieces]
  | cons c rest ih =>
    by_cases slash : c = slashByte
    · simp [pieces, slash, ih]
    · obtain ⟨piece, more, shape⟩ := List.exists_cons_of_ne_nil (pieces_ne_nil rest)
      simp [pieces, slash, ih, shape]

theorem pieces_plain (text : List UInt8) (plain : slashByte ∉ text) : pieces text = [text] := by
  induction text with
  | nil => rfl
  | cons c rest ih =>
    have here : c ≠ slashByte := by rintro rfl; exact plain List.mem_cons_self
    have later : slashByte ∉ rest := fun member => plain (List.mem_cons_of_mem _ member)
    simp [pieces, here, ih later]

theorem pieces_append_plain (text ending : List UInt8) (plain : slashByte ∉ ending) :
    ∃ front stem, pieces text = front ++ [stem] ∧
      pieces (text ++ ending) = front ++ [stem ++ ending] := by
  induction text with
  | nil => exact ⟨[], [], rfl, by simp [pieces_plain ending plain]⟩
  | cons c rest ih =>
    obtain ⟨front, stem, before, after⟩ := ih
    by_cases slash : c = slashByte
    · exact ⟨[] :: front, stem, by simp [pieces, slash, before], by simp [pieces, slash, after]⟩
    · cases front with
      | nil =>
        exact ⟨[], c :: stem, by simp_all [pieces], by simp_all [pieces]⟩
      | cons piece more =>
        exact ⟨(c :: piece) :: more, stem, by simp_all [pieces], by simp_all [pieces]⟩

theorem slash_notMem_pieces (text : List UInt8) (member : piece ∈ pieces text) :
    slashByte ∉ piece := by
  induction text generalizing piece with
  | nil => simp_all [pieces]
  | cons c rest ih =>
    rw [pieces] at member
    split at member
    · rcases List.mem_cons.mp member with rfl | later
      · simp
      · exact ih later
    · rename_i slash
      split at member
      · simp_all [Ne.symm slash]
      · rename_i piece' more shape
        rcases List.mem_cons.mp member with rfl | later
        · have := ih (shape ▸ List.mem_cons_self : piece' ∈ pieces rest)
          simp_all [Ne.symm slash]
        · exact ih (shape ▸ List.mem_cons_of_mem _ later)

theorem mem_of_mem_pieces (text : List UInt8) (member : piece ∈ pieces text) (within : c ∈ piece) :
    c ∈ text := by
  induction text generalizing piece with
  | nil => simp_all [pieces]
  | cons d rest ih =>
    rw [pieces] at member
    split at member
    · rcases List.mem_cons.mp member with rfl | later
      · simp at within
      · exact List.mem_cons_of_mem _ (ih later within)
    · split at member
      · simp_all
      · rename_i piece' more shape
        rcases List.mem_cons.mp member with rfl | later
        · rcases List.mem_cons.mp within with rfl | inside
          · exact List.mem_cons_self
          · exact List.mem_cons_of_mem _ (ih (shape ▸ List.mem_cons_self) inside)
        · exact List.mem_cons_of_mem _ (ih (shape ▸ List.mem_cons_of_mem _ later) within)

theorem mem_pieces_of_mem (text : List UInt8) (member : c ∈ text) :
    c = slashByte ∨ ∃ piece ∈ pieces text, c ∈ piece := by
  induction text with
  | nil => simp at member
  | cons d rest ih =>
    obtain ⟨piece, more, shape⟩ := List.exists_cons_of_ne_nil (pieces_ne_nil rest)
    by_cases slash : d = slashByte
    · rcases List.mem_cons.mp member with rfl | later
      · exact .inl slash
      · rcases ih later with same | ⟨found, inside, within⟩
        · exact .inl same
        · exact .inr ⟨found, by simp [pieces, slash, inside], within⟩
    · have split : pieces (d :: rest) = (d :: piece) :: more := by simp [pieces, slash, shape]
      rcases List.mem_cons.mp member with rfl | later
      · exact .inr ⟨c :: piece, by simp [split], List.mem_cons_self⟩
      · rcases ih later with same | ⟨found, inside, within⟩
        · exact .inl same
        · rw [shape] at inside
          rcases List.mem_cons.mp inside with rfl | further
          · exact .inr ⟨d :: found, by simp [split], List.mem_cons_of_mem _ within⟩
          · exact .inr ⟨found, by simp [split, further], within⟩

/-- The bytes that pieces and the slashes between them take, and one more. -/
def spread : List (List UInt8) → Nat
  | [] => 0
  | piece :: rest => piece.length + 1 + spread rest

theorem spread_pieces (text : List UInt8) :
    spread (pieces text) = text.length + 1 := by
  induction text with
  | nil => rfl
  | cons c rest ih =>
    obtain ⟨piece, more, shape⟩ := List.exists_cons_of_ne_nil (pieces_ne_nil rest)
    rw [shape] at ih
    by_cases slash : c = slashByte
    · simp [pieces, slash, spread, shape] at ih ⊢
      omega
    · simp [pieces, slash, spread, shape] at ih ⊢
      omega

theorem spread_le_of_sublist (inside : List.Sublist few many) : spread few ≤ spread many := by
  induction inside with
  | slnil => exact Nat.le_refl _
  | cons piece _ ih => simp only [spread] at ih ⊢; omega
  | cons_cons piece _ ih => simp only [spread] at ih ⊢; omega

theorem getLast?_pieces_eq_nil_iff (text : List UInt8) :
    (pieces text).getLast? = some [] ↔ text = [] ∨ text.getLast? = some slashByte := by
  rcases List.eq_nil_or_concat text with rfl | ⟨front, c, rfl⟩
  · simp [pieces]
  · by_cases slash : c = slashByte
    · subst slash
      simp [pieces_append_slash front [], pieces]
    · have plain : slashByte ∉ [c] := by simp [Ne.symm slash]
      obtain ⟨before, stem, -, after⟩ := pieces_append_plain front [c] plain
      simp [after, slash]

def leadsOn (piece : List UInt8) : Bool := piece ≠ [] && piece ≠ [dotByte]

theorem ofPiece?_eq_some (named : Path.Component.ofPiece? piece = some component) :
    leadsOn piece = true ∧ component.text.toList = piece := by
  unfold Path.Component.ofPiece? at named
  split at named
  · contradiction
  · rename_i other
    split at named
    all_goals cases named; simp_all [leadsOn, Path.Component.text]

theorem ofPiece?_eq_none (neutral : Path.Component.ofPiece? piece = none) :
    leadsOn piece = false := by
  unfold Path.Component.ofPiece? at neutral
  split at neutral
  · rename_i special
    rcases special with rfl | rfl <;> rfl
  · split at neutral <;> contradiction

/-- The components of a path are its pieces that lead on. -/
theorem map_text_filterMap (parts : List (List UInt8)) :
    (parts.filterMap Path.Component.ofPiece?).map (fun component => component.text.toList) =
      parts.filter leadsOn := by
  induction parts with
  | nil => rfl
  | cons piece rest ih =>
    cases named : Path.Component.ofPiece? piece with
    | none => simp [named, ofPiece?_eq_none named, ih]
    | some component =>
      obtain ⟨leads, text⟩ := ofPiece?_eq_some named
      simp [named, leads, text, ih]

namespace Path

/-- The last name in a path ends in `ending`. -/
def EndsIn (path : Path) (ending : OsText) : Prop :=
  ∃ front stem, pieces path.text.toList = front ++ [stem ++ ending.toList]

/-- The pieces that stay when a name is joined to a path: an empty last piece gives way. -/
def trunk (path : Path) : List (List UInt8) :=
  if (pieces path.text.toList).getLast? = some [] then (pieces path.text.toList).dropLast
  else pieces path.text.toList

theorem pieces_join (base path : Path) (relative : path.isAbsolute = false) :
    pieces (base.join path).text.toList = base.trunk ++ pieces path.text.toList := by
  have shape := getLast?_pieces_eq_nil_iff base.text.toList
  by_cases empty : base.text.toList = []
  · simp [join, relative, trunk, empty, pieces]
  by_cases slash : base.text.toList.getLast? = some slashByte
  · obtain ⟨front, split⟩ := List.getLast?_eq_some_iff.mp slash
    have parts : pieces base.text.toList = pieces front ++ [[]] := by
      rw [split, pieces_append_slash]; rfl
    have text : (base.join path).text.toList = front ++ slashByte :: path.text.toList := by
      simp [join, relative, split]
    rw [text, pieces_append_slash, trunk, parts]
    simp
  · have whole : base.trunk = pieces base.text.toList := by
      rw [trunk, if_neg]
      rw [shape]
      simp [empty, slash]
    have text : (base.join path).text.toList =
        base.text.toList ++ slashByte :: path.text.toList := by
      simp [join, relative, empty, slash]
    rw [text, pieces_append_slash, whole]

/-- The text of a path up to where a name is joined to it. -/
def opened (path : Path) : OsText :=
  if path.text.isEmpty ∨ path.text.toList.getLast? = some slashByte then path.text
  else path.text ++ "/"

theorem text_join (base : Path) (relative : path.isAbsolute = false) :
    (base.join path).text = base.opened ++ path.text := by
  rw [join, if_neg (by simp [relative]), opened]
  split <;> rfl

theorem isAbsolute_join (base path : Path) (absolute : base.isAbsolute = true) :
    (base.join path).isAbsolute = true := by
  by_cases own : path.isAbsolute = true
  · simp [join, own]
  · have start : base.text.toList ≠ [] := by
      intro empty; simp [isAbsolute, empty] at absolute
    by_cases slash : base.text.toList.getLast? = some slashByte <;>
      simp_all [join, isAbsolute, List.head?_append]

theorem isAbsolute_of_plain (plain : slashByte ∉ name.toList) :
    (Path.mk name).isAbsolute = false := by
  cases shape : name.toList with
  | nil => simp [isAbsolute, shape]
  | cons c rest =>
    have here : c ≠ slashByte := by rintro rfl; exact plain (by simp [shape])
    simp [isAbsolute, shape, here]

theorem pieces_child (base : Path) (plain : slashByte ∉ name.toList) :
    pieces (base.child name).text.toList = base.trunk ++ [name.toList] := by
  rw [child, pieces_join base ⟨name⟩ (isAbsolute_of_plain plain), pieces_plain _ plain]

theorem trunk_child (base : Path) (plain : slashByte ∉ name.toList) (notEmpty : name.toList ≠ []) :
    (base.child name).trunk = base.trunk ++ [name.toList] := by
  rw [trunk, pieces_child base plain]
  simp [notEmpty]

theorem EndsIn.join (base : Path) (ends : EndsIn path ending) : (base.join path).EndsIn ending := by
  by_cases absolute : path.isAbsolute = true
  · simpa [Path.join, absolute] using ends
  · obtain ⟨front, stem, shape⟩ := ends
    refine ⟨base.trunk ++ front, stem, ?_⟩
    rw [pieces_join base path (by simpa using absolute), shape, List.append_assoc]

theorem endsIn_append (text ending : OsText) (plain : slashByte ∉ ending.toList) :
    EndsIn ⟨text ++ ending⟩ ending := by
  obtain ⟨front, stem, -, shape⟩ := pieces_append_plain text.toList ending.toList plain
  exact ⟨front, stem, by simpa using shape⟩

theorem ofComponents_concat (front : List Component) (last : Component) :
    ofComponents (front ++ [last]) = (ofComponents front).join ⟨last.text⟩ := by
  simp [ofComponents]

theorem trunk_ofComponents (named : List Component)
    (plain : ∀ component ∈ named, slashByte ∉ component.text.toList ∧ component.text.toList ≠ []) :
    (ofComponents (.root :: named)).isAbsolute = true ∧
      (ofComponents (.root :: named)).trunk =
        [] :: named.map fun component => component.text.toList := by
  induction named using List.reverseRecOn with
  | nil => exact ⟨by decide, by decide⟩
  | append_singleton front last ih =>
    obtain ⟨absolute, parts⟩ := ih fun component member =>
      plain component (List.mem_append_left _ member)
    obtain ⟨noSlash, notEmpty⟩ := plain last (by simp)
    rw [← List.cons_append, ofComponents_concat]
    refine ⟨isAbsolute_join _ _ absolute, ?_⟩
    exact (trunk_child _ noSlash notEmpty).trans (by simp [parts])

theorem components_of_absolute (path : Path) (absolute : path.isAbsolute = true) :
    path.components = .root :: (pieces path.text.toList).filterMap Component.ofPiece? := by
  simp [components, absolute]

/-- The path beside `base.child name` that is written from the components of that path. -/
def beside (base : Path) (name other : OsText) : Path :=
  (ofComponents (base.child name).components.dropLast).child other

theorem pieces_beside (base : Path) (absolute : base.isAbsolute = true)
    (plain : slashByte ∉ name.toList) (leads : leadsOn name.toList = true) (other : OsText)
    (plainOther : slashByte ∉ other.toList) :
    (base.beside name other).isAbsolute = true ∧
      pieces (base.beside name other).text.toList =
        [] :: base.trunk.filter leadsOn ++ [other.toList] := by
  obtain ⟨component, named⟩ : ∃ component, Component.ofPiece? name.toList = some component := by
    cases named : Component.ofPiece? name.toList with
    | none => simp [ofPiece?_eq_none named] at leads
    | some component => exact ⟨component, rfl⟩
  have components : (base.child name).components.dropLast =
      .root :: base.trunk.filterMap Component.ofPiece? := by
    have whole : (base.child name).isAbsolute = true := isAbsolute_join base ⟨name⟩ absolute
    rw [components_of_absolute _ whole, pieces_child base plain]
    simp only [List.filterMap_append, List.filterMap_cons, named, List.filterMap_nil]
    rw [← List.cons_append, List.dropLast_concat]
  have tidy : ∀ component ∈ base.trunk.filterMap Component.ofPiece?,
      slashByte ∉ component.text.toList ∧ component.text.toList ≠ [] := by
    intro component member
    obtain ⟨piece, inside, named⟩ := List.mem_filterMap.mp member
    obtain ⟨leads, text⟩ := ofPiece?_eq_some named
    have within : piece ∈ pieces base.text.toList := by
      unfold trunk at inside
      split at inside
      · exact List.dropLast_subset _ inside
      · exact inside
    rw [text]
    refine ⟨slash_notMem_pieces _ within, ?_⟩
    rintro rfl
    simp [leadsOn] at leads
  obtain ⟨whole, parts⟩ := trunk_ofComponents _ tidy
  rw [beside, components]
  refine ⟨isAbsolute_join _ _ whole, ?_⟩
  rw [pieces_child _ plainOther, parts, map_text_filterMap]

end Path

end FragmentBuild
