import FragmentBuild.Proofs.PointerTypes

/-! What the normal spelling of a type expression keeps of a text: its letters, and the gaps between
them at which no punctuation stands. Main statement: the normal spelling is the only text with just
these and single spaces, so that types are equal exactly if texts agree on them, and punctuation
splits a type into parts that are spelled alone. -/
namespace FragmentBuild

/-- The characters of a text that are no white space. -/
def letters (text : List Char) : List Char := text.filter (!isBlank ·)

/-- The letters `c` and `d`, the first of which has `place` letters before it, stand next to each
other with white space between them. -/
def HasGap (text : List Char) (place : Nat) (c d : Char) : Prop :=
  ∃ front blanks back, text = front ++ c :: (blanks ++ d :: back) ∧
    (letters front).length = place ∧ isBlank c = false ∧ isBlank d = false ∧
    blanks ≠ [] ∧ blanks.all isBlank = true

/-- The character between the two parts of a text is a space, and stands between two letters. -/
structure IsSeparator (front : List Char) (c : Char) (back : List Char) : Prop where
  space : c = ' '
  before : ∃ d ∈ front.getLast?, isBlank d = false
  behind : ∃ d ∈ back.head?, isBlank d = false

/-- All white space is single spaces between letters. -/
def SingleSpaced (text : List Char) : Prop :=
  ∀ front c back, text = front ++ c :: back → isBlank c = true → IsSeparator front c back

/-- A text has the letters of another one, and a single space in each gap at which no punctuation
stands. -/
structure IsNormalForm (text normal : List Char) : Prop where
  letters : letters normal = letters text
  spaces : SingleSpaced normal
  gaps : ∀ place c d, HasGap normal place c d ↔
    HasGap text place c d ∧ isTight c = false ∧ isTight d = false

/-- A letter, and whether there is white space in front of it. -/
structure Mark where
  spaced : Bool
  letter : Char

def marks (gap : Bool) : List Char → List Mark
  | [] => []
  | c :: rest => if isBlank c then marks true rest else ⟨gap, c⟩ :: marks false rest

/-- The marks that are left where punctuation takes the white space around it. -/
def tighten (last : Option Char) : List Mark → List Mark
  | [] => []
  | ⟨spaced, c⟩ :: rest =>
    ⟨spaced && last.any (fun p => !isTight p) && !isTight c, c⟩ :: tighten (some c) rest

def spell (all : List Mark) : List Char :=
  all.flatMap fun mark => (if mark.spaced then [' '] else []) ++ [mark.letter]

theorem marks_cons_solid (gap : Bool) (solid : isBlank c = false) (rest : List Char) :
    marks gap (c :: rest) = ⟨gap, c⟩ :: marks false rest := by
  rw [marks, if_neg (by simp [solid])]

theorem marks_cons_blank (gap : Bool) (blank : isBlank c = true) (rest : List Char) :
    marks gap (c :: rest) = marks true rest := if_pos blank

theorem marks_append_solid (gap : Bool) (front : List Char) (solid : isBlank c = false)
    (back : List Char) :
    ∃ spaced, marks gap (front ++ c :: back) =
      marks gap front ++ ⟨spaced, c⟩ :: marks false back := by
  induction front generalizing gap with
  | nil => exact ⟨gap, marks_cons_solid gap solid back⟩
  | cons d front ih =>
    cases blank : isBlank d with
    | true =>
      rw [List.cons_append, marks_cons_blank gap blank, marks_cons_blank gap blank]
      exact ih true
    | false =>
      rw [List.cons_append, marks_cons_solid gap blank, marks_cons_solid gap blank]
      obtain ⟨spaced, split⟩ := ih false
      exact ⟨spaced, congrArg _ split⟩

theorem marks_blanks (gap : Bool) (blank : blanks.all isBlank = true) (text : List Char) :
    marks gap (blanks ++ text) = marks (gap || !blanks.isEmpty) text := by
  induction blanks generalizing gap with
  | nil => simp
  | cons c rest ih =>
    rw [List.all_cons, Bool.and_eq_true] at blank
    rw [List.cons_append, marks_cons_blank gap blank.1, ih _ blank.2]
    simp

theorem letters_cons_solid (solid : isBlank c = false) (rest : List Char) :
    letters (c :: rest) = c :: letters rest := List.filter_cons_of_pos (by simp [solid])

theorem letters_cons_blank (blank : isBlank c = true) (rest : List Char) :
    letters (c :: rest) = letters rest := List.filter_cons_of_neg (by simp [blank])

theorem map_letter_marks (gap : Bool) (text : List Char) :
    (marks gap text).map Mark.letter = letters text := by
  induction text generalizing gap with
  | nil => rfl
  | cons c rest ih =>
    cases blank : isBlank c with
    | true => rw [marks_cons_blank gap blank, ih, letters_cons_blank blank]
    | false => rw [marks_cons_solid gap blank, List.map_cons, ih, letters_cons_solid blank]

theorem length_marks (gap : Bool) (text : List Char) :
    (marks gap text).length = (letters text).length := by
  rw [← map_letter_marks gap, List.length_map]

theorem map_letter_tighten (last : Option Char) (all : List Mark) :
    (tighten last all).map Mark.letter = all.map Mark.letter := by
  induction all generalizing last with
  | nil => rfl
  | cons mark rest ih => rw [tighten, List.map_cons, ih, List.map_cons]

/-- The white space that is squeezed out of a text is the one that punctuation takes. -/
theorem marks_squeeze (last : Option Char) (gap : Bool) (text : List Char) :
    marks false (squeeze last gap text) = tighten last (marks gap text) := by
  induction text generalizing last gap with
  | nil => rfl
  | cons c rest ih =>
    cases blank : isBlank c with
    | true => rw [squeeze, if_pos blank, marks_cons_blank gap blank, ih]
    | false =>
      rw [squeeze_cons_solid _ _ _ blank, marks_cons_solid gap blank, tighten, ← ih]
      cases gap && last.any (fun p => !isTight p) && !isTight c with
      | true =>
        rw [if_pos rfl, List.singleton_append, marks_cons_blank _ isBlank_space,
          marks_cons_solid _ blank]
      | false => rw [if_neg Bool.false_ne_true, List.nil_append, marks_cons_solid _ blank]

theorem exists_of_marks_eq_cons (shape : marks gap text = ⟨spaced, d⟩ :: rest) :
    ∃ blanks back, text = blanks ++ d :: back ∧ blanks.all isBlank = true ∧ isBlank d = false ∧
      spaced = (gap || !blanks.isEmpty) := by
  induction text generalizing gap with
  | nil => cases shape
  | cons c tail ih =>
    cases blank : isBlank c with
    | true =>
      rw [marks_cons_blank gap blank] at shape
      obtain ⟨blanks, back, rfl, all, solid, rfl⟩ := ih shape
      exact ⟨c :: blanks, back, rfl, by rw [List.all_cons, blank, all]; rfl, solid, by simp⟩
    | false =>
      rw [marks_cons_solid gap blank] at shape
      obtain ⟨rfl, rfl⟩ := Mark.mk.inj (List.cons.inj shape).1
      exact ⟨[], tail, rfl, rfl, blank, by simp⟩

theorem exists_of_getElem?_marks {place : Nat} (marked : (marks gap text)[place]? = some mark) :
    ∃ front back, text = front ++ mark.letter :: back ∧ (letters front).length = place ∧
      isBlank mark.letter = false := by
  induction text generalizing gap place with
  | nil => cases marked
  | cons c rest ih =>
    cases blank : isBlank c with
    | true =>
      rw [marks_cons_blank gap blank] at marked
      obtain ⟨front, back, rfl, count, solid⟩ := ih marked
      exact ⟨c :: front, back, rfl, by rw [letters_cons_blank blank, count], solid⟩
    | false =>
      rw [marks_cons_solid gap blank] at marked
      cases place with
      | zero =>
        obtain rfl := Option.some.inj marked
        exact ⟨[], rest, rfl, rfl, blank⟩
      | succ place =>
        obtain ⟨front, back, rfl, rfl, solid⟩ := ih marked
        exact ⟨c :: front, back, rfl, by rw [letters_cons_solid blank]; rfl, solid⟩

theorem hasGap_iff : HasGap text place c d ↔
    ((marks false text)[place]?.map Mark.letter = some c ∧
      (marks false text)[place + 1]? = some ⟨true, d⟩) := by
  constructor
  · rintro ⟨front, blanks, back, rfl, rfl, solid, solid', wide, blank⟩
    obtain ⟨spaced, split⟩ := marks_append_solid false front solid (blanks ++ d :: back)
    have wide' : (!blanks.isEmpty) = true := by simpa using wide
    rw [marks_blanks _ blank, wide', Bool.or_true, marks_cons_solid _ solid'] at split
    rw [split, ← length_marks false]
    simp
  · rintro ⟨here, next⟩
    obtain ⟨mark, marked, rfl⟩ := Option.map_eq_some_iff.mp here
    obtain ⟨front, rest, rfl, rfl, solid⟩ := exists_of_getElem?_marks marked
    obtain ⟨spaced, split⟩ := marks_append_solid false front solid rest
    rw [split, ← length_marks false, List.getElem?_append_right (Nat.le_add_right _ 1),
      Nat.add_sub_cancel_left, List.getElem?_cons_succ] at next
    obtain ⟨more, shape⟩ := List.head?_eq_some_iff.mp (List.head?_eq_getElem?.trans next)
    obtain ⟨blanks, back, rfl, blank, solid', wide⟩ := exists_of_marks_eq_cons shape
    exact ⟨front, blanks, back, rfl, rfl, solid, solid', by simpa using wide.symm, blank⟩

theorem IsSeparator.append_left (front : List Char) (separates : IsSeparator more c back) :
    IsSeparator (front ++ more) c back := by
  obtain ⟨d, member, solid⟩ := separates.before
  refine ⟨separates.space, ⟨d, ?_, solid⟩, separates.behind⟩
  rw [List.getLast?_append, Option.mem_def.mp member]
  rfl

namespace SingleSpaced

theorem nil : SingleSpaced [] := by
  intro front c back split
  simp at split

theorem cons (single : SingleSpaced rest) (solid : isBlank c = false) :
    SingleSpaced (c :: rest) := by
  intro front d back split blank
  cases front with
  | nil =>
    obtain ⟨rfl, -⟩ := List.cons.inj split
    rw [blank] at solid
    cases solid
  | cons e front =>
    obtain ⟨rfl, tail⟩ := List.cons.inj split
    exact (single front d back tail blank).append_left [c]

theorem head_solid (single : SingleSpaced (c :: rest)) : isBlank c = false := by
  cases blank : isBlank c with
  | false => rfl
  | true =>
    obtain ⟨d, member, -⟩ := (single [] c rest rfl blank).before
    cases member

theorem cons_space (single : SingleSpaced (d :: rest)) (solid : isBlank c = false) :
    SingleSpaced (c :: ' ' :: d :: rest) := by
  intro front e back split blank
  match front with
  | [] =>
    obtain ⟨rfl, -⟩ := List.cons.inj split
    rw [blank] at solid
    cases solid
  | [f] =>
    obtain ⟨rfl, tail⟩ := List.cons.inj split
    obtain ⟨rfl, rfl⟩ := List.cons.inj tail
    exact ⟨rfl, ⟨c, rfl, solid⟩, d, rfl, single.head_solid⟩
  | f :: g :: front =>
    obtain ⟨rfl, tail⟩ := List.cons.inj split
    obtain ⟨rfl, inner⟩ := List.cons.inj tail
    exact (single front e back inner blank).append_left [c, ' ']

theorem of_append (front : List Char) (single : SingleSpaced (front ++ c :: back))
    (solid : isBlank c = false) : SingleSpaced (c :: back) := by
  intro before d behind split blank
  obtain ⟨space, ⟨last, member, solid'⟩, next⟩ :=
    single (front ++ before) d behind (by rw [split, List.append_assoc]) blank
  refine ⟨space, ⟨last, ?_, solid'⟩, next⟩
  cases before with
  | nil =>
    obtain ⟨rfl, -⟩ := List.cons.inj split
    rw [solid] at blank
    cases blank
  | cons e more => simpa using member

end SingleSpaced

theorem spell_marks_cons {c : Char} {rest : List Char} (single : SingleSpaced (c :: rest))
    (solid : isBlank c = false) : spell (marks false (c :: rest)) = c :: rest := by
  rw [marks_cons_solid _ solid]
  match rest, single with
  | [], _ => rfl
  | d :: tail, single =>
    cases blank : isBlank d with
    | false =>
      have later := spell_marks_cons (single.of_append [c] blank) blank
      exact congrArg (c :: ·) later
    | true =>
      obtain ⟨rfl, -, e, head, solid'⟩ := single [c] d tail rfl blank
      obtain ⟨more, rfl⟩ := List.head?_eq_some_iff.mp head
      have later := spell_marks_cons (single.of_append [c, ' '] solid') solid'
      rw [marks_cons_solid _ solid'] at later
      rw [marks_cons_blank _ isBlank_space, marks_cons_solid _ solid']
      exact congrArg (c :: ' ' :: ·) later
termination_by rest.length

theorem SingleSpaced.spell_marks (single : SingleSpaced text) :
    spell (marks false text) = text := by
  cases text with
  | nil => rfl
  | cons c rest => exact spell_marks_cons single single.head_solid

/-- What follows a letter in a squeezed text is spaced singly. -/
theorem singleSpaced_squeeze (last : Option Char) (solid : ∀ c ∈ last, isBlank c = false)
    (gap : Bool) (text : List Char) : SingleSpaced (last.toList ++ squeeze last gap text) := by
  induction text generalizing last gap with
  | nil =>
    cases last with
    | none => exact .nil
    | some c => exact SingleSpaced.nil.cons (solid c rfl)
  | cons d rest ih =>
    cases blank : isBlank d with
    | true =>
      rw [squeeze, if_pos blank]
      exact ih last solid true
    | false =>
      have later : SingleSpaced (d :: squeeze (some d) false rest) :=
        ih (some d) (fun c same => by cases same; exact blank) false
      rw [squeeze_cons_solid _ _ _ blank]
      cases last with
      | none => simpa using later
      | some c =>
        split
        · exact later.cons_space (solid c rfl)
        · exact later.cons (solid c rfl)

theorem getElem?_tighten (last : Option Char) (all : List Mark) (place : Nat) (c d : Char) :
    ((tighten last all)[place]?.map Mark.letter = some c ∧
        (tighten last all)[place + 1]? = some ⟨true, d⟩) ↔
      (all[place]?.map Mark.letter = some c ∧ all[place + 1]? = some ⟨true, d⟩) ∧
        isTight c = false ∧ isTight d = false := by
  induction all generalizing last place with
  | nil => simp [tighten]
  | cons mark rest ih =>
    cases place with
    | succ place => simpa [tighten] using ih (some mark.letter) place
    | zero =>
      cases rest with
      | nil => simp [tighten]
      | cons next more =>
        obtain ⟨spaced, e⟩ := next
        simp only [tighten, List.getElem?_cons_zero, List.getElem?_cons_succ, Option.map_some,
          Option.some.injEq, Mark.mk.injEq, Option.any_some, Bool.and_eq_true, Bool.not_eq_true']
        constructor
        · rintro ⟨rfl, ⟨⟨rfl, loose⟩, loose'⟩, rfl⟩
          exact ⟨⟨rfl, rfl, rfl⟩, loose, loose'⟩
        · rintro ⟨⟨rfl, rfl, rfl⟩, loose, loose'⟩
          exact ⟨rfl, ⟨⟨rfl, loose⟩, loose'⟩, rfl⟩

theorem isNormalForm_normalize (text : List Char) : IsNormalForm text (normalize text) where
  letters := by
    rw [← map_letter_marks false, normalize, marks_squeeze, map_letter_tighten, map_letter_marks]
  spaces := singleSpaced_squeeze none nofun false text
  gaps place c d := by
    rw [hasGap_iff, hasGap_iff, normalize, marks_squeeze, getElem?_tighten]

theorem SingleSpaced.spaced_eq_false (single : SingleSpaced text)
    (marked : (marks false text)[0]? = some mark) : mark.spaced = false := by
  cases text with
  | nil => cases marked
  | cons c rest =>
    rw [marks_cons_solid _ single.head_solid] at marked
    obtain rfl := Option.some.inj marked
    rfl

theorem hasGap_iff_spaced {mark : Mark} (here : (marks false text)[place]? = some before)
    (next : (marks false text)[place + 1]? = some mark) :
    HasGap text place before.letter mark.letter ↔ mark.spaced = true := by
  rw [hasGap_iff, here, next]
  cases mark
  simp

/-- Marks are told by the letters of a text and its gaps. -/
theorem SingleSpaced.marks_eq (single : SingleSpaced text) (single' : SingleSpaced other)
    (same : letters text = letters other)
    (gaps : ∀ place c d, HasGap text place c d ↔ HasGap other place c d) :
    marks false text = marks false other := by
  rw [← map_letter_marks false, ← map_letter_marks false] at same
  have letter (place : Nat) : (marks false text)[place]?.map Mark.letter =
      (marks false other)[place]?.map Mark.letter := by
    rw [← List.getElem?_map, ← List.getElem?_map, same]
  refine List.ext_getElem? fun place => ?_
  have here := letter place
  cases marked : (marks false text)[place]? with
  | none => rwa [marked, Option.map_none, eq_comm, Option.map_eq_none_iff, eq_comm] at here
  | some mark =>
    rw [marked, Option.map_some, eq_comm, Option.map_eq_some_iff] at here
    obtain ⟨mark', marked', named⟩ := here
    have spaced : mark.spaced = mark'.spaced := by
      cases place with
      | zero => rw [single.spaced_eq_false marked, single'.spaced_eq_false marked']
      | succ place =>
        obtain ⟨before, found⟩ : ∃ before, (marks false text)[place]? = some before := by
          obtain ⟨within, -⟩ := List.getElem?_eq_some_iff.mp marked
          exact ⟨_, List.getElem?_eq_getElem (Nat.lt_of_succ_lt within)⟩
        have there := letter place
        rw [found, Option.map_some, eq_comm, Option.map_eq_some_iff] at there
        obtain ⟨before', found', called⟩ := there
        rw [Bool.eq_iff_iff, ← hasGap_iff_spaced found marked, ← hasGap_iff_spaced found' marked',
          called, named]
        exact gaps place before.letter mark.letter
    rw [marked']
    cases mark
    cases mark'
    cases named
    cases spaced
    rfl

theorem IsNormalForm.eq_normalize (normal : IsNormalForm text other) : other = normalize text := by
  have found := isNormalForm_normalize text
  rw [← normal.spaces.spell_marks, ← found.spaces.spell_marks,
    normal.spaces.marks_eq found.spaces (normal.letters.trans found.letters.symm)
      fun place c d => (normal.gaps place c d).trans (found.gaps place c d).symm]

theorem isNormalForm_iff : IsNormalForm text other ↔ other = normalize text := by
  constructor
  · exact IsNormalForm.eq_normalize
  · rintro rfl
    exact isNormalForm_normalize text

/-- Two texts have the same letters, and gaps at the same places, except where punctuation takes
them. -/
structure SameSpelling (first second : List Char) : Prop where
  letters : letters first = letters second
  gaps : ∀ place c d, isTight c = false → isTight d = false →
    (HasGap first place c d ↔ HasGap second place c d)

theorem normalize_eq_iff : normalize first = normalize second ↔ SameSpelling first second := by
  have here := isNormalForm_normalize first
  have there := isNormalForm_normalize second
  constructor
  · intro same
    rw [← same] at there
    refine ⟨here.letters.symm.trans there.letters, fun place c d loose loose' => ?_⟩
    have gaps := (here.gaps place c d).symm.trans (there.gaps place c d)
    simpa [loose, loose'] using gaps
  · rintro ⟨same, gaps⟩
    have spelled : IsNormalForm first (normalize second) := by
      refine ⟨there.letters.trans same.symm, there.spaces, fun place c d => ?_⟩
      rw [there.gaps]
      refine and_congr_left ?_
      rintro ⟨loose, loose'⟩
      exact (gaps place c d loose loose').symm
    exact spelled.eq_normalize.symm

theorem not_isBlank_of_isTight (tight : isTight p = true) : isBlank p = false := by
  have all : tightPunctuation.all (!isBlank ·) = true := by decide +kernel
  have member : p ∈ tightPunctuation := by simpa [isTight] using tight
  simpa using List.all_eq_true.mp all p member

theorem squeeze_tight (tight : isTight p = true) (gap other : Bool) (text : List Char) :
    squeeze (some p) gap text = squeeze none other text := by
  induction text generalizing gap other with
  | nil => rfl
  | cons c rest ih =>
    cases blank : isBlank c with
    | true => rw [squeeze, if_pos blank, squeeze, if_pos blank, ih]
    | false =>
      rw [squeeze_cons_solid _ _ _ blank, squeeze_cons_solid _ _ _ blank]
      simp [tight]

theorem squeeze_append_tight (tight : isTight p = true) (last : Option Char) (gap : Bool)
    (front back : List Char) :
    squeeze last gap (front ++ p :: back) = squeeze last gap front ++ p :: normalize back := by
  induction front generalizing last gap with
  | nil =>
    rw [List.nil_append, squeeze_cons_solid _ _ _ (not_isBlank_of_isTight tight),
      squeeze_tight tight false false]
    simp [tight, squeeze, normalize]
  | cons c rest ih =>
    cases blank : isBlank c with
    | true => rw [List.cons_append, squeeze, if_pos blank, squeeze, if_pos blank, ih]
    | false =>
      rw [List.cons_append, squeeze_cons_solid _ _ _ blank, squeeze_cons_solid _ _ _ blank, ih,
        List.append_assoc, List.cons_append]

theorem normalize_append_tight (tight : isTight p = true) (front back : List Char) :
    normalize (front ++ p :: back) = normalize front ++ p :: normalize back :=
  squeeze_append_tight tight none false front back

/-- A text ends in punctuation, or is empty. -/
def EndsTight (text : List Char) : Prop := ∀ p ∈ text.getLast?, isTight p = true

/-- A text starts with punctuation, or is empty. -/
def StartsTight (text : List Char) : Prop := ∀ p ∈ text.head?, isTight p = true

theorem normalize_append_of_endsTight (ends : EndsTight front) (back : List Char) :
    normalize (front ++ back) = normalize front ++ normalize back := by
  rcases List.eq_nil_or_concat front with rfl | ⟨more, p, rfl⟩
  · rfl
  · rw [List.concat_eq_append] at ends ⊢
    have tight : isTight p = true := ends p (by simp)
    rw [List.append_assoc, List.singleton_append, normalize_append_tight tight,
      normalize_append_tight tight, List.append_assoc]
    rfl

theorem normalize_append_of_startsTight (front : List Char) (starts : StartsTight back) :
    normalize (front ++ back) = normalize front ++ normalize back := by
  cases back with
  | nil => rw [List.append_nil, show normalize [] = [] from rfl, List.append_nil]
  | cons p rest =>
    have tight : isTight p = true := starts p rfl
    have alone : normalize (p :: rest) = p :: normalize rest :=
      normalize_append_tight tight [] rest
    rw [normalize_append_tight tight, alone]

namespace TypeExpr

theorem parse_eq_iff {text other : String} :
    parse text = parse other ↔ normalize text.toList = normalize other.toList := by
  constructor
  · intro same
    rw [← toList_parse, same, toList_parse]
  · intro same
    simp only [parse, same]

/-- The text of a type is the only one that has the letters of what was parsed, and single spaces
in its gaps where no punctuation stands. Parsing the text of a type gives the type. Types are equal
exactly if they are spelled with the same letters and such gaps. Punctuation splits a type into
parts that are parsed alone, and a part may be spelled in any way. -/
theorem parse_normal_form :
    (∀ text normal : String,
      IsNormalForm text.toList normal.toList ↔ normal = (parse text).text) ∧
    (∀ text : String, parse (parse text).text = parse text) ∧
    (∀ text other : String, parse text = parse other ↔ SameSpelling text.toList other.toList) ∧
    (∀ p : Char, isTight p = true → ∀ front back : String,
      (parse (front ++ String.singleton p ++ back)).text =
        (parse front).text ++ String.singleton p ++ (parse back).text) ∧
    ∀ front back : String, EndsTight front.toList → StartsTight back.toList →
      ∀ text other : String, parse text = parse other →
        parse (front ++ text ++ back) = parse (front ++ other ++ back) := by
  refine ⟨fun text normal => ?unique, fun text => (parse text).parse_text,
    fun text other => parse_eq_iff.trans normalize_eq_iff, fun p tight front back => ?split,
    fun front back ends starts text other same => ?replaced⟩
  case unique =>
    rw [isNormalForm_iff, ← toList_parse, String.toList_inj]
  case split =>
    rw [← String.toList_inj]
    simp only [toList_parse, String.toList_append, String.toList_singleton]
    rw [List.append_assoc, List.singleton_append, normalize_append_tight tight, List.append_assoc,
      List.singleton_append]
  case replaced =>
    rw [parse_eq_iff] at same ⊢
    simp only [String.toList_append, normalize_append_of_startsTight _ starts,
      normalize_append_of_endsTight ends, same]

/-- An argument that is spelled with a no-break space and a line break, alone and behind a
comma. -/
theorem parse_normal_form_argument :
    IsNormalForm "dyn\u00a0A \n".toList "dyn A".toList ∧
      (parse ("Map < u8 ," ++ "dyn\u00a0A \n" ++ ">")).text = "Map<u8,dyn A>" ∧
      (parse ("Map < u8 " ++ String.singleton ',' ++ " dyn  A>")).text = "Map<u8,dyn A>" := by
  obtain ⟨unique, -, -, split, replaced⟩ := parse_normal_form
  have same : parse "dyn\u00a0A \n" = parse "dyn A" := by decide +kernel
  have ends : EndsTight "Map < u8 ,".toList := (Option.all_eq_true ..).mp (by decide +kernel)
  have starts : StartsTight ">".toList := (Option.all_eq_true ..).mp (by decide +kernel)
  refine ⟨(unique _ _).mpr (by decide +kernel), ?_, ?_⟩
  · rw [replaced _ _ ends starts _ _ same]
    decide +kernel
  · rw [split ',' (by decide)]
    decide +kernel

end TypeExpr

end FragmentBuild
