import Mathlib.Tactic.SplitIfs
import Troupe.Proofs.Yaml.Place
import Troupe.Yaml.Style

/-!
# What the style of a text says about its characters

The features of a text are collected in one pass, and none that was found is lost again.  So what a style
asks of the features holds of each character, given the one before it and those after it (`Along`).
-/

namespace Troupe.Yaml

/-- A text starts with the characters that a test accepts, up to the first one that it does not. -/
theorem exists_run (test : Char → Bool) (cs : List Char) : ∃ run rest, cs = run ++ rest ∧
    (∀ c ∈ run, test c = true) ∧ ∀ c ∈ rest.head?, test c = false := by
  induction cs with
  | nil =>
    refine ⟨[], [], rfl, fun c among ↦ absurd among List.not_mem_nil, ?_⟩
    rintro c ⟨⟩
  | cons c cs ih =>
    cases accepted : test c with
    | true =>
      obtain ⟨run, rest, rfl, all, stops⟩ := ih
      refine ⟨c :: run, rest, rfl, ?_, stops⟩
      rintro d among
      rcases List.mem_cons.mp among with rfl | later
      · exact accepted
      · exact all d later
    | false =>
      refine ⟨[], c :: cs, rfl, fun d among ↦ absurd among List.not_mem_nil, ?_⟩
      rintro d ⟨⟩
      exact accepted

/-- A text is a word, spaces, and what comes after the spaces, if there are some. -/
theorem exists_word_spaces (cs : List Char) : ∃ word n rest, cs = word ++ (spaces n ++ rest) ∧
    (∀ c ∈ word, c ≠ ' ') ∧ (∀ c ∈ rest.head?, c ≠ ' ') ∧ (n = 0 → rest = []) := by
  obtain ⟨word, rest, rfl, solid, stops⟩ := exists_run (· != ' ') cs
  obtain ⟨blanks, rest, rfl, blank, starts⟩ := exists_run (· == ' ') rest
  obtain ⟨n, rfl⟩ : ∃ n, blanks = spaces n :=
    ⟨blanks.length, List.eq_replicate_iff.mpr ⟨rfl, fun c among ↦ by simpa using blank c among⟩⟩
  refine ⟨word, n, rest, rfl, fun c among ↦ by simpa using solid c among,
    fun c head ↦ by simpa using starts c head, ?_⟩
  rintro rfl
  cases rest with
  | nil => rfl
  | cons c rest =>
    have space := stops c rfl
    have other := starts c rfl
    simp only [bne_eq_false_iff_eq] at space
    simp [space] at other

/-- What holds of each character of a text, given the one before it, if there is one, and those after it. -/
def Along (good : Option Char → Char → List Char → Prop) : Option Char → List Char → Prop
  | _, [] => True
  | before, c :: rest => good before c rest ∧ Along good (some c) rest

/-- What holds along a text holds along the end of it. -/
theorem Along.right {good : Option Char → Char → List Char → Prop} {before : Option Char}
    {cs ds : List Char} (along : Along good before (cs ++ ds)) : Along good (cs.getLast?.or before) ds := by
  induction cs generalizing before with
  | nil => exact along
  | cons c cs ih =>
    have rest := ih along.2
    rw [List.getLast?_cons]
    cases last : cs.getLast? with
    | none => rwa [last] at rest
    | some d => rwa [last] at rest

/-- What holds along a text holds of all its characters. -/
theorem Along.forall_mem {good : Option Char → Char → List Char → Prop} {P : Char → Prop}
    (each : ∀ before c rest, good before c rest → P c) {before : Option Char} {cs : List Char}
    (along : Along good before cs) : ∀ c ∈ cs, P c := by
  induction cs generalizing before with
  | nil => exact fun c among ↦ absurd among List.not_mem_nil
  | cons c cs ih =>
    rintro d among
    rcases List.mem_cons.mp among with rfl | later
    · exact each _ _ _ along.1
    · exact ih along.2 d later

/-- A character of a text that is written as it stands. -/
structure Plainly (before : Option Char) (c : Char) (rest : List Char) : Prop where
  /-- it needs no escape -/
  printable : isPrintable c = true
  /-- it ends no line -/
  inside : isBreak c = false
  /-- the text does not end with a space -/
  ends : rest = [] → c ≠ ' '
  /-- the text does not start with a space or an indicator -/
  first : before = none → c ≠ ' ' ∧ Features.isIndicatorFirst c rest = false
  /-- no later character is an indicator -/
  later : ∀ b, before = some b → Features.isIndicatorLater b c rest = false

/-- A text that may stand without quotes. -/
structure Unquoted (s : String) : Prop where
  /-- it is not empty -/
  some : s ≠ ""
  /-- nothing in it has a meaning of its own -/
  along : Along Plainly none s.toList
  /-- it starts with no mark of a document -/
  document : (['-', '-', '-'].isPrefixOf s.toList || ['.', '.', '.'].isPrefixOf s.toList) = false

theorem Unquoted.exists_cons {s : String} (unquoted : Unquoted s) : ∃ c cs, s.toList = c :: cs :=
  List.exists_cons_of_ne_nil fun none ↦ unquoted.some (String.toList_inj.mp none)

/-- A character of a text in single quotes. -/
structure Singly (before : Option Char) (c : Char) (_ : List Char) : Prop where
  /-- it needs no escape -/
  printable : isPrintable c = true
  /-- no space follows a line end -/
  starts : before.any isBreak = true → c ≠ ' '
  /-- no space stands before a line end -/
  ends : before = some ' ' → isBreak c = false

namespace Features

variable {f : Features} {before : Option Char} {cs : List Char}

/-- A feature that was found is not lost, so what excludes it holds along the text. -/
theorem along_collect {allows : Features → Bool} {good : Option Char → Char → List Char → Prop}
    (step : ∀ f before c rest, allows (add f before c rest) = true →
      allows f = true ∧ good before c rest) (allowed : allows (collect f before cs) = true) :
    allows f = true ∧ Along good before cs := by
  induction cs generalizing f before with
  | nil => exact ⟨allowed, trivial⟩
  | cons c cs ih =>
    obtain ⟨first, rest⟩ := ih allowed
    obtain ⟨old, here⟩ := step f before c cs first
    exact ⟨old, here, rest⟩

theorem along_of_allowsPlain (allowed : (collect f before cs).allowsPlain = true) :
    f.allowsPlain = true ∧ Along Plainly before cs := by
  refine along_collect (fun f before c rest allowed ↦ ?_) allowed
  simp only [allowsPlain, add, Bool.not_eq_true', Bool.or_eq_false_iff] at allowed ⊢
  obtain ⟨⟨⟨⟨⟨⟨⟨⟨⟨l, l'⟩, ⟨b, -⟩⟩, ⟨t, t'⟩⟩, ⟨e, -⟩⟩, ⟨g, -⟩⟩, ⟨h, -⟩⟩, ⟨s, s'⟩⟩, ⟨m, m'⟩⟩, ⟨i, i'⟩⟩ := allowed
  refine ⟨⟨⟨⟨⟨⟨⟨⟨⟨l, b⟩, t⟩, e⟩, g⟩, h⟩, s⟩, m⟩, i⟩, by simpa using s', m', ?_, ?_, ?_⟩
  · rintro rfl
    simpa using t'
  · rintro rfl
    exact ⟨by simpa using l', i'⟩
  · rintro b rfl
    exact i'

theorem along_of_allowsSingle (allowed : (collect f before cs).allowsSingle = true) :
    f.allowsSingle = true ∧ Along Singly before cs := by
  refine along_collect (fun f before c rest allowed ↦ ?_) allowed
  simp only [allowsSingle, add, Bool.not_eq_true', Bool.or_eq_false_iff] at allowed ⊢
  obtain ⟨⟨⟨b, b'⟩, ⟨e, e'⟩⟩, ⟨s, s'⟩⟩ := allowed
  refine ⟨⟨⟨b, e⟩, s⟩, by simpa using s', ?_, ?_⟩
  · intro after
    simpa [after] using b'
  · rintro rfl
    simpa using e'

theorem printable_of_allowsBlock (allowed : (collect f before cs).allowsBlock = true) :
    ∀ c ∈ cs, isPrintable c = true := by
  have along : Along (fun _ c _ ↦ isPrintable c = true) before cs := by
    refine (along_collect (fun f before c rest allowed ↦ ?_) allowed).2
    simp only [allowsBlock, add, Bool.not_eq_true', Bool.or_eq_false_iff] at allowed ⊢
    obtain ⟨⟨⟨t, -⟩, ⟨e, -⟩⟩, ⟨s, s'⟩⟩ := allowed
    exact ⟨⟨⟨t, e⟩, s⟩, by simpa using s'⟩
  exact along.forall_mem (P := fun c ↦ isPrintable c = true) fun _ _ _ printable ↦ printable

end Features

namespace Style

variable {s : String}

/-- Only a text that reads as itself is wanted as it stands. -/
theorem ofText_of_wanted (wants : wanted s = .plain) : Plain.ofText s = .text false := by
  rw [wanted] at wants
  split at wants
  · cases wants
  · split at wants
    · assumption
    · cases wants

/-- A text is wanted as a block if it has lines. -/
theorem wanted_eq_literal_iff : wanted s = .literal ↔ '\n' ∈ s.toList := by
  constructor
  · intro wants
    rw [wanted] at wants
    split at wants
    · next lines => simpa using lines
    · split at wants <;> cases wants
  · intro lines
    rw [wanted, if_pos (by simpa using lines)]

/-- A text is written as it stands only if it reads as itself. -/
theorem of_plain (style : of s = .plain) : Plain.ofText s = .text false ∧ Unquoted s := by
  rw [of] at style
  split at style
  · split at style <;> cases style
  · next wants =>
    have reads := ofText_of_wanted wants
    have some : s ≠ "" := by
      rintro rfl
      cases reads
    split at style
    · next allowed =>
      obtain ⟨none, along⟩ := Features.along_of_allowsPlain allowed
      exact ⟨reads, some, along, by simpa [Features.allowsPlain] using none⟩
    · split at style <;> cases style
  · split at style <;> cases style

theorem of_single (style : of s = .single) : '\n' ∉ s.toList ∧ Along Singly none s.toList := by
  have along (allowed : (Features.of s.toList).allowsSingle = true) : Along Singly none s.toList :=
    (Features.along_of_allowsSingle allowed).2
  rw [← wanted_eq_literal_iff]
  rw [of] at style
  split at style
  · split at style <;> cases style
  · next wants =>
    refine ⟨by rw [wants]; decide, along ?_⟩
    by_contra refused
    rw [if_neg refused] at style
    split at style <;> cases style
  · next other _ =>
    refine ⟨other, along ?_⟩
    by_contra refused
    rw [if_neg refused] at style
    cases style

theorem of_literal (style : of s = .literal) :
    '\n' ∈ s.toList ∧ ∀ c ∈ s.toList, isPrintable c = true := by
  rw [← wanted_eq_literal_iff]
  rw [of] at style
  split at style
  · next wants =>
    split at style
    · next allowed => exact ⟨wants, Features.printable_of_allowsBlock allowed⟩
    · cases style
  · split at style
    · cases style
    · split at style <;> cases style
  · split at style <;> cases style

end Style

end Troupe.Yaml
