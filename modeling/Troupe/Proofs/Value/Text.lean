import Troupe.Data.Access
import Troupe.Proofs.Numeral
import Troupe.Proofs.Value.Equality

/-!
# The canonical text tells values apart

Two values have the same canonical text exactly if they are equal, wherever they are stored
(`Heap.text_eq_iff`).  This leaves out floating-point numbers, and integers in another form than the
preferred one, for the text does not show the form.

A text is read from the front.  Its first character tells the sort of the tree (`Data.sortOf?`).  A number
ends where no digit goes on with it, a quoted text at the first quote that is not escaped, a list or a map at
the bracket that stands where an item or an entry could.  So if two texts, whatever follows them, are the
same, the trees are the same, and so is what follows (`Data.text_append_inj`).
-/

namespace Troupe

namespace Data

open Numeral (EndsInteger endsInteger_nil endsInteger_cons)

variable {d e : Data} {rest more : List Char}

/-! ## Which trees a text tells apart -/

/-- The tree is no floating-point number, and an unsigned integer only if no signed word holds it. -/
def Legible : Data → Prop
  | .float _ => False
  | .uint u => 2 ^ 63 ≤ u.toNat
  | _ => True

instance : DecidablePred Legible
  | .float _ => inferInstanceAs (Decidable False)
  | .uint u => inferInstanceAs (Decidable (2 ^ 63 ≤ u.toNat))
  | .null | .bool _ | .int _ | .string _ | .list _ | .map _ => inferInstanceAs (Decidable True)

theorem text_of_integer? {n : Int} (stands : d.integer? = some n) : d.text = toString n := by
  cases d with
  | int i =>
    cases stands
    rw [text]
  | uint u =>
    cases stands
    rw [text]
    rfl
  | null | bool b | float x | string s | list ds | map ds => cases stands

/-- An integer that fits a signed word is held in one. -/
theorem eq_of_integer? {n : Int} (legibleD : Legible d) (legibleE : Legible e)
    (standsD : d.integer? = some n) (standsE : e.integer? = some n) : d = e := by
  have same : d.integer? = e.integer? := standsD.trans standsE.symm
  -- the two forms share no integer
  have apart (i : Int64) {u : UInt64} (large : 2 ^ 63 ≤ u.toNat) : some i.toInt ≠ some (u.toNat : Int) := by
    have := i.toInt_lt
    intro equal
    have := Option.some.inj equal
    omega
  cases d with
  | int i =>
    cases e with
    | int j => exact congrArg int (Int64.toInt_inj.mp (Option.some.inj same))
    | uint u => exact absurd same (apart i legibleE)
    | null | bool b | float x | string s | list ds | map ds => cases standsE
  | uint u =>
    cases e with
    | int j => exact absurd same.symm (apart j legibleD)
    | uint v => exact congrArg uint (UInt64.toNat_inj.mp (Int.ofNat_inj.mp (Option.some.inj same)))
    | null | bool b | float x | string s | list ds | map ds => cases standsE
  | null | bool b | float x | string s | list ds | map ds => cases standsD

/-! ## First characters -/

/-- The sort of a tree: integers of both forms are of one sort. -/
def sort : Data → Kind
  | .uint _ => .int
  | d => d.kind

/-- The sort of tree whose text starts with a character. -/
def sortOf? (c : Char) : Option Kind :=
  if Numeral.isSignOrDigit c then some .int
  else if c = 'n' then some .null
  else if c = 't' ∨ c = 'f' then some .bool
  else if c = '"' then some .string
  else if c = '[' then some .list
  else if c = '\x7b' then some .map
  else none

theorem exists_integer? (sort : d.sort = .int) : ∃ n, d.integer? = some n := by
  cases d with
  | int i | uint u => exact ⟨_, rfl⟩
  | null | bool b | float x | string s | list ds | map ds => cases sort

theorem sort_of_integer? {n : Int} (stands : d.integer? = some n) : d.sort = .int := by
  cases d with
  | int i | uint u => rfl
  | null | bool b | float x | string s | list ds | map ds => cases stands

theorem toList_quoted (s : String) : (quoted s).toList = '"' :: (quotedChars s.toList ++ ['"']) := by
  simp [quoted]

theorem toList_text_list (ds : List Data) :
    (text (.list ds)).toList = '[' :: ((textItems true ds).toList ++ [']']) := by
  simp [text]

theorem toList_text_map (ds : List (String × Data)) :
    (text (.map ds)).toList = '\x7b' :: ((textEntries true ds).toList ++ ['\x7d']) := by
  simp [text]

theorem exists_text_eq_cons_of_integer? {n : Int} (stands : d.integer? = some n) :
    ∃ c cs, d.text.toList = c :: cs ∧ sortOf? c = some d.sort := by
  obtain ⟨c, cs, text, letter⟩ := Numeral.exists_toString_eq_cons n
  rw [text_of_integer? stands, sort_of_integer? stands]
  exact ⟨c, cs, text, if_pos letter⟩

/-- The first character of a text tells the sort of the tree. -/
theorem exists_text_eq_cons (legible : Legible d) :
    ∃ c cs, d.text.toList = c :: cs ∧ sortOf? c = some d.sort := by
  cases d with
  | null => exact ⟨'n', _, rfl, rfl⟩
  | bool b => cases b <;> exact ⟨_, _, rfl, rfl⟩
  | int i | uint u => exact exists_text_eq_cons_of_integer? rfl
  | float x => exact legible.elim
  | string s => exact ⟨'"', _, toList_quoted s, rfl⟩
  | list ds => exact ⟨'[', _, toList_text_list ds, rfl⟩
  | map ds => exact ⟨'\x7b', _, toList_text_map ds, rfl⟩

theorem sort_eq_of_text (legibleD : Legible d) (legibleE : Legible e)
    (same : d.text.toList ++ rest = e.text.toList ++ more) : d.sort = e.sort := by
  obtain ⟨c, cs, textD, sortD⟩ := exists_text_eq_cons legibleD
  obtain ⟨c', cs', textE, sortE⟩ := exists_text_eq_cons legibleE
  rw [textD, textE] at same
  obtain rfl : c = c' := (List.cons.inj same).1
  exact Option.some.inj (sortD.symm.trans sortE)

/-- No text starts with a character that tells no sort. -/
theorem text_ne_cons (legible : Legible d) {c : Char} (none : sortOf? c = none) :
    d.text.toList ++ rest ≠ c :: more := by
  intro same
  obtain ⟨c', cs, text, sort⟩ := exists_text_eq_cons legible
  rw [text] at same
  obtain rfl : c' = c := (List.cons.inj same).1
  rw [none] at sort
  cases sort

/-! ## What stands where -/

/-- How a character is written between quotes. -/
def escaped (c : Char) : List Char := if c = '"' ∨ c = '\\' then ['\\', c] else [c]

theorem quotedChars_cons (c : Char) (cs : List Char) :
    quotedChars (c :: cs) = escaped c ++ quotedChars cs := by
  rw [quotedChars, escaped]
  split <;> rfl

theorem escaped_append_inj {c d : Char} (same : escaped c ++ rest = escaped d ++ more) :
    c = d ∧ rest = more := by
  unfold escaped at same
  split at same <;> split at same
  · simpa using same
  · next special =>
    obtain ⟨rfl, -⟩ := List.cons.inj same
    exact absurd (.inr rfl) special
  · next special _ =>
    obtain ⟨rfl, -⟩ := List.cons.inj same
    exact absurd (.inr rfl) special
  · simpa using same

/-- A quote between quotes is never written alone. -/
theorem escaped_append_ne (c : Char) : escaped c ++ rest ≠ '"' :: more := by
  unfold escaped
  split
  · simp
  · next plain =>
    intro same
    exact plain (.inl (List.cons.inj same).1)

/-- A quoted text ends at the first quote that is not escaped. -/
theorem quotedChars_append_inj {cs ds : List Char}
    (same : quotedChars cs ++ '"' :: rest = quotedChars ds ++ '"' :: more) : cs = ds ∧ rest = more := by
  induction cs generalizing ds with
  | nil =>
    cases ds with
    | nil => exact ⟨rfl, (List.cons.inj same).2⟩
    | cons d ds =>
      rw [quotedChars_cons, List.append_assoc] at same
      exact absurd same.symm (escaped_append_ne d)
  | cons c cs ih =>
    rw [quotedChars_cons, List.append_assoc] at same
    cases ds with
    | nil => exact absurd same (escaped_append_ne c)
    | cons d ds =>
      rw [quotedChars_cons, List.append_assoc] at same
      obtain ⟨rfl, others⟩ := escaped_append_inj same
      obtain ⟨rfl, behind⟩ := ih others
      exact ⟨rfl, behind⟩

theorem quoted_append_inj {s t : String} (same : (quoted s).toList ++ rest = (quoted t).toList ++ more) :
    s = t ∧ rest = more := by
  rw [toList_quoted, toList_quoted] at same
  have inner : quotedChars s.toList ++ '"' :: rest = quotedChars t.toList ++ '"' :: more := by
    simpa using same
  obtain ⟨texts, others⟩ := quotedChars_append_inj inner
  exact ⟨String.toList_inj.mp texts, others⟩

/-- A separator or a bracket ends an integer. -/
theorem ends_textItems (ds : List Data) (rest : List Char) :
    EndsInteger ((textItems false ds).toList ++ ']' :: rest) := by
  cases ds with
  | nil => exact endsInteger_cons rfl rest
  | cons d ds => simpa [textItems] using endsInteger_cons rfl _

theorem ends_textEntries (ds : List (String × Data)) (rest : List Char) :
    EndsInteger ((textEntries false ds).toList ++ '\x7d' :: rest) := by
  cases ds with
  | nil => exact endsInteger_cons rfl rest
  | cons d ds => simpa [textEntries] using endsInteger_cons rfl _

/-- What stands before an item or an entry. -/
def separator (first : Bool) : List Char := if first then [] else [',', ' ']

theorem toList_textItems_cons (first : Bool) (d : Data) (ds : List Data) :
    (textItems first (d :: ds)).toList =
      separator first ++ (d.text.toList ++ (textItems false ds).toList) := by
  cases first <;> simp [textItems, separator]

theorem toList_textEntries_cons (first : Bool) (k : String) (d : Data) (ds : List (String × Data)) :
    (textEntries first ((k, d) :: ds)).toList =
      separator first ++ ((quoted k).toList ++ ':' :: (d.text.toList ++ (textEntries false ds).toList)) := by
  cases first <;> simp [textEntries, separator]

/-- A list with an item does not end where the item starts. -/
theorem textItems_cons_ne (first : Bool) (legible : Legible d) (ds : List Data) :
    (textItems first (d :: ds)).toList ++ rest ≠ ']' :: more := by
  rw [toList_textItems_cons]
  cases first with
  | true => simpa [separator] using text_ne_cons legible rfl
  | false => simp [separator]

theorem textEntries_cons_ne (first : Bool) (k : String) (ds : List (String × Data)) :
    (textEntries first ((k, d) :: ds)).toList ++ rest ≠ '\x7d' :: more := by
  rw [toList_textEntries_cons, toList_quoted]
  cases first <;> simp [separator]

/-! ## Trees -/

theorem text_append_inj_of_integer? {n : Int} (stands : d.integer? = some n) (legibleD : Legible d)
    (legibleE : Legible e) (endsRest : EndsInteger rest) (endsMore : EndsInteger more)
    (same : d.text.toList ++ rest = e.text.toList ++ more) : d = e ∧ rest = more := by
  have sorts := sort_eq_of_text legibleD legibleE same
  obtain ⟨m, other⟩ := exists_integer? (sorts.symm.trans (sort_of_integer? stands))
  rw [text_of_integer? stands, text_of_integer? other] at same
  obtain ⟨rfl, behind⟩ := Numeral.toString_append_inj endsRest endsMore same
  exact ⟨eq_of_integer? legibleD legibleE stands other, behind⟩

mutual

/-- A tree is told from its text, whatever follows. -/
theorem text_append_inj : (d : Data) → {e : Data} → {rest more : List Char} → d.Everywhere Legible →
    e.Everywhere Legible → EndsInteger rest → EndsInteger more →
      d.text.toList ++ rest = e.text.toList ++ more → d = e ∧ rest = more := by
  intro d e rest more legibleD legibleE endsRest endsMore same
  have sorts := sort_eq_of_text legibleD.root legibleE.root same
  cases d with
  | null =>
    cases e with
    | null => exact ⟨rfl, List.append_cancel_left same⟩
    | bool b | int i | uint u | float x | string s | list es | map es => cases sorts
  | bool b =>
    cases e with
    | bool c => cases b <;> cases c <;> simp [text] at same ⊢ <;> exact same
    | null | int i | uint u | float x | string s | list es | map es => cases sorts
  | int i | uint u => exact text_append_inj_of_integer? rfl legibleD legibleE.root endsRest endsMore same
  | float x => exact legibleD.elim
  | string s =>
    cases e with
    | string t =>
      rw [text, text] at same
      obtain ⟨rfl, behind⟩ := quoted_append_inj same
      exact ⟨rfl, behind⟩
    | null | bool b | int i | uint u | float x | list es | map es => cases sorts
  | list ds =>
    cases e with
    | list es =>
      rw [toList_text_list, toList_text_list] at same
      obtain ⟨rfl, behind⟩ := textItems_append_inj true ds legibleD.2 legibleE.2 (by simpa using same)
      exact ⟨rfl, behind⟩
    | null | bool b | int i | uint u | float x | string s | map es => cases sorts
  | map ds =>
    cases e with
    | map es =>
      rw [toList_text_map, toList_text_map] at same
      obtain ⟨rfl, behind⟩ := textEntries_append_inj true ds legibleD.2 legibleE.2 (by simpa using same)
      exact ⟨rfl, behind⟩
    | null | bool b | int i | uint u | float x | string s | list es => cases sorts

theorem textItems_append_inj (first : Bool) : (ds : List Data) → {es : List Data} →
    {rest more : List Char} → EverywhereItems Legible ds → EverywhereItems Legible es →
      (textItems first ds).toList ++ ']' :: rest = (textItems first es).toList ++ ']' :: more →
        ds = es ∧ rest = more
  | [], [], _, _, _, _, same => ⟨rfl, (List.cons.inj same).2⟩
  | [], e :: es, _, _, _, legibleE, same => absurd same.symm (textItems_cons_ne first legibleE.1.root es)
  | d :: ds, [], _, _, legibleD, _, same => absurd same (textItems_cons_ne first legibleD.1.root ds)
  | d :: ds, e :: es, rest, more, legibleD, legibleE, same => by
    rw [toList_textItems_cons, toList_textItems_cons] at same
    simp only [List.append_assoc] at same
    obtain ⟨rfl, others⟩ := text_append_inj d legibleD.1 legibleE.1 (ends_textItems ds rest)
      (ends_textItems es more) (List.append_cancel_left same)
    obtain ⟨rfl, behind⟩ := textItems_append_inj false ds legibleD.2 legibleE.2 others
    exact ⟨rfl, behind⟩

theorem textEntries_append_inj (first : Bool) : (ds : List (String × Data)) →
    {es : List (String × Data)} → {rest more : List Char} → EverywhereEntries Legible ds →
      EverywhereEntries Legible es →
      (textEntries first ds).toList ++ '\x7d' :: rest = (textEntries first es).toList ++ '\x7d' :: more →
        ds = es ∧ rest = more
  | [], [], _, _, _, _, same => ⟨rfl, (List.cons.inj same).2⟩
  | [], (k, _) :: es, _, _, _, _, same => absurd same.symm (textEntries_cons_ne first k es)
  | (k, _) :: ds, [], _, _, _, _, same => absurd same (textEntries_cons_ne first k ds)
  | (k, d) :: ds, (l, e) :: es, rest, more, legibleD, legibleE, same => by
    rw [toList_textEntries_cons, toList_textEntries_cons] at same
    simp only [List.append_assoc, List.cons_append] at same
    obtain ⟨rfl, values⟩ := quoted_append_inj (List.append_cancel_left same)
    obtain ⟨rfl, others⟩ := text_append_inj d legibleD.1 legibleE.1 (ends_textEntries ds rest)
      (ends_textEntries es more) (List.cons.inj values).2
    obtain ⟨rfl, behind⟩ := textEntries_append_inj false ds legibleD.2 legibleE.2 others
    exact ⟨rfl, behind⟩

end

theorem text_inj (legibleD : d.Everywhere Legible) (legibleE : e.Everywhere Legible) :
    d.text = e.text ↔ d = e := by
  refine ⟨fun same ↦ ?_, fun same ↦ congrArg text same⟩
  exact (text_append_inj d legibleD legibleE endsInteger_nil endsInteger_nil (by rw [same])).1

theorem notFloat_of_legible : (d : Data) → d.Legible → d.NotFloat
  | .float _, legible => legible
  | .null, _ | .bool _, _ | .int _, _ | .uint _, _ | .string _, _ | .list _, _ | .map _, _ => trivial

end Data

namespace Heap

variable {h : Heap} {v w : Value}

/-- Two values have the same canonical text exactly if their contents are the same, and that is exactly if
they are equal, whatever they share: no text is that of two values, however the texts and keys in them look,
unless there are floating-point numbers in one of them, or unsigned integers that a signed word holds. -/
theorem text_eq_iff (closed : h.Closed) (acyclic : h.Acyclic) (knowsV : h.Knows v) (knowsW : h.Knows w)
    (legibleV : (h.read v).Everywhere Data.Legible) (legibleW : (h.read w).Everywhere Data.Legible) :
    (h.text v = h.text w ↔ h.read v = h.read w) ∧ (h.text v = h.text w ↔ h.equal v w = true) := by
  have exact := legibleV.imp Data.notFloat_of_legible
  have numbers := exact.imp Data.notNaN_of_notFloat
  have shares : h.SharesNoNaN v w := fun path r first _ _ ↦
    everywhere_of_leads closed acyclic knowsV numbers ⟨path, first⟩
  have contents : h.text v = h.text w ↔ h.read v = h.read w := Data.text_inj legibleV legibleW
  refine ⟨contents, ?_⟩
  calc h.text v = h.text w
    _ ↔ h.read v = h.read w := contents
    _ ↔ (h.read v).equals (h.read w) = true := (Data.equals_iff_eq exact).symm
    _ ↔ h.equal v w = true := by rw [equal_eq_equals closed acyclic knowsV knowsW shares]

/-- Two texts with quotes and commas in different places, in lists that other lists share. -/
def lookalikes : Heap :=
  ⟨#[[.string "a\", \"b", .uint 0x8000000000000000], [.string "a", .string "b", .uint 0x8000000000000000],
    [.list ⟨0⟩, .list ⟨0⟩], [.list ⟨0⟩, .list ⟨0⟩]], #[]⟩

theorem inside_lookalikes {v w : Value} (mem : w ∈ lookalikes.inside v) :
    v.isHandle ∧ ¬ w.isHandle ∨ (v = .list ⟨2⟩ ∨ v = .list ⟨3⟩) ∧ w = .list ⟨0⟩ := by
  have has : lookalikes.Has v := has_of_mem_inside mem
  cases v with
  | list r =>
    obtain ⟨i⟩ := r
    have below : i < 4 := has
    interval_cases i <;> simp [lookalikes, items] at mem
    · rcases mem with rfl | rfl <;> exact .inl ⟨rfl, Bool.false_ne_true⟩
    · rcases mem with rfl | rfl | rfl <;> exact .inl ⟨rfl, Bool.false_ne_true⟩
    · exact .inr ⟨.inl rfl, mem⟩
    · exact .inr ⟨.inr rfl, mem⟩
  | map r => exact absurd has (Nat.not_lt_zero _)
  | null | bool b | int i | uint u | float x | string s => exact has.elim

theorem closed_lookalikes : lookalikes.Closed := by
  intro v w mem handle
  rcases inside_lookalikes mem with ⟨-, scalar⟩ | ⟨-, rfl⟩
  · exact absurd handle scalar
  · decide

theorem acyclic_lookalikes : lookalikes.Acyclic := by
  -- a list is above the values in it
  apply acyclic_of_rank fun v ↦ if v.isHandle then if v = .list ⟨0⟩ then 1 else 2 else 0
  intro v w mem
  rcases inside_lookalikes mem with ⟨handle, scalar⟩ | ⟨rfl | rfl, rfl⟩
  · rw [if_neg scalar, if_pos handle]
    split <;> decide
  · decide
  · decide

/-- What is in two lists of the same contents has the same text, and escapes keep other texts apart. -/
theorem text_eq_iff_lookalikes :
    lookalikes.Closed ∧ lookalikes.Acyclic ∧
      (∀ i < 4, lookalikes.Knows (.list ⟨i⟩) ∧ (lookalikes.read (.list ⟨i⟩)).Everywhere Data.Legible) ∧
      lookalikes.text (.list ⟨2⟩) = lookalikes.text (.list ⟨3⟩) ∧
      lookalikes.text (.list ⟨0⟩) ≠ lookalikes.text (.list ⟨1⟩) := by
  have each : ∀ i < 4, lookalikes.Has (.list ⟨i⟩) ∧
    (lookalikes.read (.list ⟨i⟩)).Everywhere Data.Legible := by decide
  have exactly (i j : Nat) (belowI : i < 4) (belowJ : j < 4) :=
    text_eq_iff closed_lookalikes acyclic_lookalikes (fun _ ↦ (each i belowI).1) (fun _ ↦ (each j belowJ).1)
      (each i belowI).2 (each j belowJ).2
  refine ⟨closed_lookalikes, acyclic_lookalikes, ?_, ?_, ?_⟩
  · exact fun i below ↦ ⟨fun _ ↦ (each i below).1, (each i below).2⟩
  · exact (exactly 2 3 (by decide) (by decide)).2.mpr (by rfl)
  · exact mt (exactly 0 1 (by decide) (by decide)).2.mp (by decide)

end Heap

end Troupe
