import Troupe.Proofs.Codec
import Troupe.Proofs.Data
import Troupe.Proofs.Yaml.Keys

/-!
# What written trees look like

A written tree starts with a token and ends with the end of a line, and all its characters are readable.
Words and numbers stand without quotes, though they do not read as texts.
-/

namespace Troupe.Yaml

/-! ## Words and numbers -/

/-- A character that has no meaning of its own anywhere in a text. -/
def isOrdinary (c : Char) : Bool :=
  isPrintable c && !isBreak c && !" #,[]\x7b\x7d&*!|>'\"%@\x60?:-.".toList.contains c

theorem plainly_of_ordinary {c : Char} (ordinary : isOrdinary c = true) (before : Option Char)
    (rest : List Char) : Plainly before c rest := by
  simp [isOrdinary] at ordinary
  obtain ⟨⟨printable, inside⟩, other⟩ := ordinary
  refine ⟨printable, inside, fun _ ↦ other.1, fun _ ↦ ⟨other.1, ?_⟩, fun b _ ↦ ?_⟩
  · simp [Features.isIndicatorFirst, other]
  · simp [Features.isIndicatorLater, other]

theorem along_of_ordinary {cs : List Char} (ordinary : ∀ c ∈ cs, isOrdinary c = true) (before : Option Char) :
    Along Plainly before cs := by
  induction cs generalizing before with
  | nil => exact trivial
  | cons c cs ih =>
    exact ⟨plainly_of_ordinary (ordinary c List.mem_cons_self) before cs,
      ih (fun d among ↦ ordinary d (List.mem_cons_of_mem _ among)) (some c)⟩

theorem unquoted_of_ordinary {s : String} (some : s ≠ "") (ordinary : ∀ c ∈ s.toList, isOrdinary c = true) :
    Unquoted s := by
  refine ⟨some, along_of_ordinary ordinary none, ?_⟩
  cases first : s.toList with
  | nil => rfl
  | cons c cs =>
    have other := ordinary c (first ▸ List.mem_cons_self)
    have dash : '-' ≠ c := by
      rintro rfl
      cases other
    have point : '.' ≠ c := by
      rintro rfl
      cases other
    simp [List.isPrefixOf, dash, point]

theorem ordinary_of_mem_toDigits {c : Char} {n : Nat} (among : c ∈ Nat.toDigits 10 n) : isOrdinary c = true := by
  have each : ∀ d < 10, isOrdinary d.digitChar = true := by decide
  obtain ⟨d, small, rfl⟩ := Numeral.exists_digitChar_of_mem_toDigits (by decide) among
  exact each d small

theorem unquoted_nat (n : Nat) : Unquoted (toString n) := by
  have digits : (toString n).toList = Nat.toDigits 10 n := Nat.toList_repr
  refine unquoted_of_ordinary Nat.repr_ne_empty ?_
  rw [digits]
  exact fun c ↦ ordinary_of_mem_toDigits

theorem unquoted_int (i : Int) : Unquoted (toString i) := by
  cases i with
  | ofNat n => exact unquoted_nat n
  | negSucc m =>
    have shape := Numeral.toList_toString_negSucc m
    obtain ⟨c, cs, first⟩ := List.exists_cons_of_ne_nil (Nat.toDigits_ne_nil (n := m + 1) (b := 10))
    have ordinary : ∀ d ∈ c :: cs, isOrdinary d = true := fun d among ↦
      ordinary_of_mem_toDigits (first ▸ among)
    have digit := plainly_of_ordinary (ordinary c List.mem_cons_self) none cs
    have blank := isBlank_eq_false digit.printable (digit.first rfl).1
    rw [first] at shape
    refine ⟨toString_int_ne_empty _, ?_, ?_⟩
    · rw [shape]
      refine ⟨⟨rfl, rfl, fun _ ↦ by decide, fun _ ↦ ⟨by decide, ?_⟩, by rintro b ⟨⟩⟩,
        along_of_ordinary ordinary _⟩
      simp [Features.isIndicatorFirst, endsWord, blank, digit.inside]
    · have dash : '-' ≠ c := by
        rintro rfl
        cases ordinary '-' List.mem_cons_self
      rw [shape]
      simp [List.isPrefixOf, dash]

theorem unquoted_null : Unquoted "null" := unquoted_of_ordinary (by decide) (List.all_eq_true.mp rfl)

theorem unquoted_bool (b : Bool) : Unquoted (if b then "true" else "false") := by
  cases b <;> exact unquoted_of_ordinary (by decide) (List.all_eq_true.mp rfl)

/-! ## Starts and ends -/

/-- The text ends with the end of a line. -/
def EndsLine (cs : List Char) : Prop := ∃ front b, cs = front ++ [b] ∧ isBreak b = true

theorem EndsLine.column {cs : List Char} (ends : EndsLine cs) (p : Place) (n : Nat) :
    (p.past (cs ++ spaces n)).column = n := by
  obtain ⟨front, b, rfl, last⟩ := ends
  rw [List.append_assoc]
  exact Place.column_past_spaces p front last n

theorem endsLine_newline (cs : List Char) : EndsLine (cs ++ ['\n']) := ⟨cs, '\n', rfl, rfl⟩

theorem EndsLine.append {cs : List Char} (ends : EndsLine cs) (before : List Char) : EndsLine (before ++ cs) := by
  obtain ⟨front, b, rfl, last⟩ := ends
  exact ⟨before ++ front, b, (List.append_assoc _ _ _).symm, last⟩

theorem endsLine_literalBody (outer : Nat) {cs : List Char} {atStart : Bool} (some : atStart = true → cs ≠ []) :
    EndsLine (literalBody outer atStart cs) := by
  induction cs generalizing atStart with
  | nil =>
    cases atStart with
    | true => exact absurd rfl (some rfl)
    | false => exact endsLine_newline []
  | cons c cs ih =>
    rw [literalBody]
    split
    · next last =>
      cases cs with
      | nil => exact ⟨[], c, rfl, last⟩
      | cons d cs => exact (ih fun _ ↦ List.cons_ne_nil d cs).append [c]
    · have line : EndsLine (literalBody outer false cs) := ih (by rintro ⟨⟩)
      exact (line.append [c]).append _

theorem endsLine_writeText (outer : Nat) (s : String) : EndsLine (writeText outer s) := by
  rw [writeText]
  cases style : Style.of s with
  | plain => exact endsLine_newline _
  | single => exact ⟨'\'' :: singleBody outer false s.toList ++ ['\''], '\n', by simp, rfl⟩
  | double => exact ⟨'"' :: doubleBody s.toList ++ ['"'], '\n', by simp, rfl⟩
  | literal =>
    have some : s.toList ≠ [] := List.ne_nil_of_mem (Style.of_literal style).1
    exact ((endsLine_literalBody outer fun _ ↦ some).append ['\n']).append _

theorem solid_cons {c : Char} (rest : List Char) (printable : isPrintable c = true) (inside : isBreak c = false)
    (space : c ≠ ' ') (comment : c ≠ '#') : Solid (c :: rest) := by
  rintro d ⟨⟩
  refine ⟨isBlank_eq_false printable space, inside, comment, ?_⟩
  rintro rfl
  cases printable

/-- A text without quotes starts with a token. -/
theorem Unquoted.solid {s : String} (unquoted : Unquoted s) (rest : List Char) : Solid (s.toList ++ rest) := by
  obtain ⟨c, cs, first⟩ := unquoted.exists_cons
  have along := unquoted.along
  rw [first] at along ⊢
  have start := first_of_plainly along c rfl
  exact solid_cons _ along.1.printable along.1.inside start.1 start.2

theorem solid_writeText (outer : Nat) (s : String) (rest : List Char) : Solid (writeText outer s ++ rest) := by
  rw [writeText]
  cases style : Style.of s with
  | plain =>
    simp only [List.append_assoc]
    exact (Style.of_plain style).2.solid _
  | single => exact solid_cons _ rfl rfl (by decide) (by decide)
  | double => exact solid_cons _ rfl rfl (by decide) (by decide)
  | literal => exact solid_cons _ rfl rfl (by decide) (by decide)

theorem solid_writeKey {k : String} (simple : isSimpleKey k = true) (rest : List Char) :
    Solid (writeKey k ++ rest) := by
  rcases writeKey_cases simple with ⟨style, shape⟩ | ⟨single, -, -, shape⟩
  · rw [shape]
    exact (Style.of_plain style).2.solid rest
  · rw [shape]
    cases single <;> exact solid_cons _ rfl rfl (by decide) (by decide)

/-! ## Containers -/

theorem solid_writeItems {ds : List Data} (some : ds ≠ []) (column : Nat) (rest : List Char) :
    Solid (writeItems true column ds ++ rest) := by
  cases ds with
  | nil => exact absurd rfl some
  | cons d ds => exact solid_cons _ rfl rfl (by decide) (by decide)

/-- The text behind the colon of a short key in a column. -/
def valueText (column : Nat) : Data → List Char
  | .list (d :: ds) => '\n' :: (spaces column ++ writeItems true column (d :: ds))
  | .map (e :: es) => '\n' :: (spaces (column + 2) ++ node (column + 2) (column + 2) (.map (e :: es)))
  | d => ' ' :: node (column + 2) (column + 2) d

/-- The text of an entry in a column. -/
def entryText (column : Nat) (k : String) (d : Data) : List Char :=
  if isSimpleKey k then writeKey k ++ ':' :: valueText column d
  else '?' :: ' ' :: (writeText (column + 2) k ++
    (spaces column ++ ':' :: ' ' :: node (column + 2) (column + 2) d))

theorem writeEntries_cons (column : Nat) (k : String) (d : Data) (es : List (String × Data)) :
    writeEntries true column ((k, d) :: es) = entryText column k d ++ writeEntries false column es := by
  match d with
  | .null | .bool _ | .int _ | .uint _ | .float _ | .string _ | .list [] | .map [] =>
    simp [writeEntries, entryText, valueText]
  | .list (d :: ds) => simp [writeEntries, entryText, valueText, node]
  | .map (e :: es) => simp [writeEntries, entryText, valueText, node]

theorem writeEntries_false (column : Nat) (e : String × Data) (es : List (String × Data)) :
    writeEntries false column (e :: es) = spaces column ++ writeEntries true column (e :: es) := by
  obtain ⟨k, d⟩ := e
  rw [writeEntries_cons]
  match d with
  | .null | .bool _ | .int _ | .uint _ | .float _ | .string _ | .list [] | .map [] =>
    simp [writeEntries, entryText, valueText]
  | .list (d :: ds) => simp [writeEntries, entryText, valueText, node]
  | .map (e :: es) => simp [writeEntries, entryText, valueText, node]

theorem entryText_ne_nil (column : Nat) (k : String) (d : Data) : entryText column k d ≠ [] := by
  rw [entryText]
  split <;> simp

theorem solid_entryText (column : Nat) (k : String) (d : Data) (rest : List Char) :
    Solid (entryText column k d ++ rest) := by
  rw [entryText]
  split
  · next simple =>
    rw [List.append_assoc]
    exact solid_writeKey simple _
  · exact solid_cons _ rfl rfl (by decide) (by decide)

theorem solid_writeEntries {es : List (String × Data)} (some : es ≠ []) (column : Nat) (rest : List Char) :
    Solid (writeEntries true column es ++ rest) := by
  cases es with
  | nil => exact absurd rfl some
  | cons e es =>
    rw [writeEntries_cons, List.append_assoc]
    exact solid_entryText column e.1 e.2 _

/-- What starts the text of a tree is a token. -/
theorem solid_node {d : Data} (exact : d.NotFloat) (outer column : Nat) (rest : List Char) :
    Solid (node outer column d ++ rest) := by
  match d with
  | .null => exact solid_cons _ rfl rfl (by decide) (by decide)
  | .bool b => cases b <;> exact solid_cons _ rfl rfl (by decide) (by decide)
  | .int i =>
    rw [node, List.append_assoc]
    exact (unquoted_int i.toInt).solid _
  | .uint u =>
    rw [node, List.append_assoc]
    exact (unquoted_nat u.toNat).solid _
  | .float x => exact exact.elim
  | .string s => exact solid_writeText outer s rest
  | .list [] => exact solid_cons _ rfl rfl (by decide) (by decide)
  | .list (d :: ds) => exact solid_writeItems (List.cons_ne_nil d ds) column rest
  | .map [] => exact solid_cons _ rfl rfl (by decide) (by decide)
  | .map (e :: es) => exact solid_writeEntries (List.cons_ne_nil e es) column rest

/-! ## Readable characters -/

/-- All characters may stand in a text that is read. -/
def Readable (cs : List Char) : Prop := cs.all isReadable = true

instance : DecidablePred Readable := fun cs ↦ inferInstanceAs (Decidable (cs.all isReadable = true))

theorem readable_iff {cs : List Char} : Readable cs ↔ ∀ c ∈ cs, isReadable c = true := List.all_eq_true

theorem readable_append {cs ds : List Char} : Readable (cs ++ ds) ↔ Readable cs ∧ Readable ds := by
  simp only [readable_iff, List.forall_mem_append]

theorem readable_cons {c : Char} {cs : List Char} : Readable (c :: cs) ↔ isReadable c = true ∧ Readable cs := by
  simp only [readable_iff, List.forall_mem_cons]

theorem isReadable_of_isPrintable {c : Char} (printable : isPrintable c = true) : isReadable c = true := by
  simp only [isPrintable, isReadable, Bool.or_eq_true, Bool.and_eq_true, beq_iff_eq, bne_iff_ne,
    decide_eq_true_eq] at printable ⊢
  omega

theorem readable_of_printable {cs : List Char} (printable : ∀ c ∈ cs, isPrintable c = true) : Readable cs :=
  readable_iff.mpr fun c among ↦ isReadable_of_isPrintable (printable c among)

theorem readable_spaces (n : Nat) : Readable (spaces n) := by
  refine readable_iff.mpr fun c among ↦ ?_
  rw [mem_spaces among]
  rfl

theorem Unquoted.readable {s : String} (unquoted : Unquoted s) : Readable s.toList :=
  readable_of_printable (unquoted.along.forall_mem (P := fun c ↦ isPrintable c = true) fun _ _ _ h ↦ h.printable)

theorem readable_quoted (single : Bool) {c : Char} (printable : single = true → isPrintable c = true) :
    Readable (quoted single c) := by
  rw [quoted]
  split_ifs with quotes quote special
  · decide
  · exact readable_cons.mpr ⟨isReadable_of_isPrintable (printable quotes), rfl⟩
  · refine readable_cons.mpr ⟨rfl, readable_iff.mpr fun d among ↦ isReadable_of_isPrintable ?_⟩
    exact (isGraphic_iff.mp (isGraphic_of_mem_escape c d among)).1
  · simp only [Bool.or_eq_true, not_or, Bool.not_eq_true', Bool.not_eq_false] at special
    exact readable_cons.mpr ⟨isReadable_of_isPrintable special.1.1.1, rfl⟩

theorem readable_flatMap_quoted (single : Bool) {cs : List Char}
    (printable : single = true → ∀ c ∈ cs, isPrintable c = true) : Readable (cs.flatMap (quoted single)) := by
  refine readable_iff.mpr fun d among ↦ ?_
  obtain ⟨c, listed, written⟩ := List.mem_flatMap.mp among
  exact readable_iff.mp (readable_quoted single fun quotes ↦ printable quotes c listed) d written

theorem readable_singleBody (outer : Nat) (atStart : Bool) {cs : List Char}
    (printable : ∀ c ∈ cs, isPrintable c = true) : Readable (singleBody outer atStart cs) := by
  have indented (atStart : Bool) : Readable (if atStart then spaces outer else []) := by
    split
    · exact readable_spaces outer
    · rfl
  induction cs generalizing atStart with
  | nil => exact indented atStart
  | cons c cs ih =>
    obtain ⟨first, others⟩ := List.forall_mem_cons.mp printable
    rw [singleBody]
    split
    · exact readable_cons.mpr ⟨isReadable_of_isPrintable first, ih true others⟩
    · have here := readable_quoted true fun _ ↦ first
      rw [quoted, if_pos rfl] at here
      exact readable_append.mpr ⟨readable_append.mpr ⟨indented atStart, here⟩, ih false others⟩

theorem readable_literalBody (outer : Nat) (atStart : Bool) {cs : List Char}
    (printable : ∀ c ∈ cs, isPrintable c = true) : Readable (literalBody outer atStart cs) := by
  induction cs generalizing atStart with
  | nil => cases atStart <;> rfl
  | cons c cs ih =>
    obtain ⟨first, others⟩ := List.forall_mem_cons.mp printable
    have here := isReadable_of_isPrintable first
    rw [literalBody]
    split
    · exact readable_cons.mpr ⟨here, ih true others⟩
    · refine readable_append.mpr ⟨?_, readable_cons.mpr ⟨here, ih false others⟩⟩
      split
      · exact readable_spaces outer
      · rfl

theorem readable_blockHeader (cs : List Char) : Readable (blockHeader cs) := by
  obtain ⟨stated, chomp, shape, -⟩ := exists_blockHeader cs
  rw [shape]
  cases stated <;> cases chomp <;> decide

theorem readable_writeText (outer : Nat) (s : String) : Readable (writeText outer s) := by
  rw [writeText]
  cases style : Style.of s with
  | plain => exact readable_append.mpr ⟨(Style.of_plain style).2.readable, by decide⟩
  | single =>
    have printable := (Style.of_single style).2.forall_mem (P := fun c ↦ isPrintable c = true)
      fun _ _ _ h ↦ h.printable
    refine readable_append.mpr ⟨readable_cons.mpr ⟨rfl, ?_⟩, by decide⟩
    exact readable_singleBody outer false printable
  | double =>
    refine readable_append.mpr ⟨readable_cons.mpr ⟨rfl, ?_⟩, by decide⟩
    exact readable_flatMap_quoted false (by rintro ⟨⟩)
  | literal =>
    refine readable_append.mpr ⟨readable_blockHeader _, readable_cons.mpr ⟨rfl, ?_⟩⟩
    exact readable_literalBody outer true (Style.of_literal style).2

theorem readable_writeKey (k : String) : Readable (writeKey k) := by
  rw [writeKey]
  cases style : Style.of k with
  | plain => exact (Style.of_plain style).2.readable
  | single =>
    have printable := (Style.of_single style).2.forall_mem (P := fun c ↦ isPrintable c = true)
      fun _ _ _ h ↦ h.printable
    refine readable_append.mpr ⟨readable_cons.mpr ⟨rfl, ?_⟩, by decide⟩
    exact readable_singleBody 0 false printable
  | double | literal =>
    refine readable_append.mpr ⟨readable_cons.mpr ⟨rfl, ?_⟩, by decide⟩
    exact readable_flatMap_quoted false (by rintro ⟨⟩)

theorem readable_entryText (column : Nat) (k : String) {d : Data}
    (readable : ∀ outer column, Readable (node outer column d)) : Readable (entryText column k d) := by
  have key := readable_writeKey k
  have text := readable_writeText (column + 2) k
  have value := readable (column + 2) (column + 2)
  have indented := readable_spaces
  rw [entryText]
  split
  · refine readable_append.mpr ⟨key, readable_cons.mpr ⟨rfl, ?_⟩⟩
    match d with
    | .list (d :: ds) =>
      exact readable_cons.mpr ⟨rfl, readable_append.mpr ⟨indented column, readable (column + 2) column⟩⟩
    | .map (e :: es) =>
      exact readable_cons.mpr ⟨rfl, readable_append.mpr ⟨indented (column + 2), value⟩⟩
    | .null | .bool _ | .int _ | .uint _ | .float _ | .string _ | .list [] | .map [] =>
      exact readable_cons.mpr ⟨rfl, value⟩
  · simp only [readable_cons, readable_append]
    exact ⟨rfl, rfl, text, indented column, rfl, rfl, value⟩

mutual

/-- All characters of a written tree are readable. -/
theorem readable_node (outer column : Nat) : (d : Data) → d.Everywhere Data.NotFloat →
    Readable (node outer column d)
  | .null, _ => rfl
  | .bool b, _ => by cases b <;> rfl
  | .int i, _ => readable_append.mpr ⟨(unquoted_int i.toInt).readable, by decide⟩
  | .uint u, _ => readable_append.mpr ⟨(unquoted_nat u.toNat).readable, by decide⟩
  | .float _, exact => exact.elim
  | .string s, _ => readable_writeText outer s
  | .list [], _ => rfl
  | .list (d :: ds), exact => readable_writeItems true column (d :: ds) exact.2
  | .map [], _ => rfl
  | .map (e :: es), exact => readable_writeEntries true column (e :: es) exact.2

/-- All characters of written items are readable. -/
theorem readable_writeItems (first : Bool) (column : Nat) : (ds : List Data) →
    Data.EverywhereItems Data.NotFloat ds → Readable (writeItems first column ds)
  | [], _ => rfl
  | d :: ds, exact => by
    have item := readable_node (column + 2) (column + 2) d exact.1
    have items := readable_writeItems false column ds exact.2
    have indented : Readable (if first then [] else spaces column) := by
      split
      · rfl
      · exact readable_spaces column
    rw [writeItems]
    simp only [readable_append, readable_cons]
    exact ⟨⟨indented, rfl, rfl, item⟩, items⟩

/-- All characters of written entries are readable. -/
theorem readable_writeEntries (first : Bool) (column : Nat) : (es : List (String × Data)) →
    Data.EverywhereEntries Data.NotFloat es → Readable (writeEntries first column es)
  | [], _ => rfl
  | (k, d) :: es, exact => by
    have entry := readable_entryText column k fun outer column ↦ readable_node outer column d exact.1
    have entries := readable_writeEntries false column es exact.2
    have whole : Readable (writeEntries true column ((k, d) :: es)) := by
      rw [writeEntries_cons]
      exact readable_append.mpr ⟨entry, entries⟩
    cases first with
    | true => exact whole
    | false =>
      rw [writeEntries_false]
      exact readable_append.mpr ⟨readable_spaces column, whole⟩

end

end Troupe.Yaml
