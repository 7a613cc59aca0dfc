import Troupe.Account
import Troupe.Proofs.Actor.Arguments
import Troupe.Proofs.Actor.Serial
import Troupe.Proofs.Binary64

/-!
# What becomes of the funds of an account

A message to an account is refused, told the funds, or moves an amount (`Effect`).  A refused message leaves
the funds as they are.  An accepted amount is not at most zero, and one that is taken is not more than the
funds; for numbers this means that it is above zero, and at most the funds.  Funds that were not negative
stay so (`funds_guarded`).

A NaN is not at most zero, and not more than anything, so it passes both tests, and so does an infinite
amount that is taken from infinite funds.  Such a message spoils the funds: they are a NaN then, and stay
one.
-/

namespace Troupe.Account

open Binary64 (zero infinity)

/-- A way to move an amount. -/
inductive Transfer where
  /-- an amount comes in -/
  | deposit
  /-- an amount goes out -/
  | debit
deriving DecidableEq, Repr

namespace Transfer

/-- The name of the operation. -/
def name : Transfer → String
  | .deposit => "deposit"
  | .debit => "debit"

/-- What the operation does to funds. -/
def move : Transfer → Binary64 → Binary64 → Except AccountError Binary64
  | .deposit => Account.deposit
  | .debit => Account.debit

/-- The funds after an amount was moved. -/
def apply : Transfer → Binary64 → Binary64 → Binary64
  | .deposit => Binary64.add
  | .debit => Binary64.sub

/-- The tests that an amount has to pass. -/
def Allows (t : Transfer) (funds x : Binary64) : Prop :=
  x.atMost (zero false) = false ∧ (t = .debit → funds.less x = false)

end Transfer

variable {t : Transfer} {funds x : Binary64}

theorem move_eq (t : Transfer) (funds x : Binary64) : t.move funds x =
    if x.atMost (zero false) then .error .invalidAmount
    else if t = .debit ∧ funds.less x then .error .notEnoughFunds
    else .ok (t.apply funds x) := by
  have checked : checkAmount x =
      if x.atMost (zero false) then .error .invalidAmount else .ok x := rfl
  cases t with
  | deposit =>
    rw [Transfer.move, deposit, checked]
    split <;> rfl
  | debit =>
    rw [Transfer.move, debit, checked]
    split
    · rfl
    · change (if funds.less x then _ else _) = _
      cases funds.less x <;> rfl

/-- An amount that passes the tests is moved. -/
theorem move_of_allows (allowed : t.Allows funds x) : t.move funds x = .ok (t.apply funds x) := by
  obtain ⟨above, covered⟩ := allowed
  have enough : ¬ (t = .debit ∧ funds.less x = true) := by
    rintro ⟨debit, short⟩
    rw [covered debit] at short
    cases short
  rw [move_eq, above, if_neg Bool.false_ne_true, if_neg enough]

/-- An amount that does not pass them is refused. -/
theorem move_of_not_allows (refused : ¬ t.Allows funds x) : ∃ e, t.move funds x = .error e := by
  rw [move_eq]
  split
  · exact ⟨_, rfl⟩
  · rename_i above
    split
    · exact ⟨_, rfl⟩
    · rename_i enough
      refine absurd ⟨Bool.eq_false_of_not_eq_true above, fun debit ↦ ?_⟩ refused
      exact Bool.eq_false_of_not_eq_true fun short ↦ enough ⟨debit, short⟩

/-! ## Messages -/

/-- A message asks for an amount to be moved. -/
structure Asks (cue : Cue) (t : Transfer) (x : Binary64) : Prop where
  /-- it names the operation -/
  name : cue.name = t.name
  /-- the amount is its only argument -/
  amount : ∃ v, cue.arguments = [v] ∧ Shape.float? v = some x

theorem Transfer.name_ne_balance (t : Transfer) : t.name ≠ "balance" := by cases t <;> decide

theorem Transfer.name_injective {t t' : Transfer} (same : t.name = t'.name) : t = t' := by
  cases t <;> cases t' <;> first | rfl | exact absurd same (by decide)

/-- A message asks for one thing. -/
theorem Asks.unique {cue : Cue} {t' : Transfer} {x' : Binary64} (asked : Asks cue t x)
    (other : Asks cue t' x') : t = t' ∧ x = x' := by
  obtain ⟨v, arguments, read⟩ := asked.amount
  obtain ⟨w, arguments', read'⟩ := other.amount
  obtain rfl : v = w := List.singleton_inj.mp (arguments.symm.trans arguments')
  have same : t = t' := Transfer.name_injective (asked.name.symm.trans other.name)
  exact ⟨same, Option.some.inj (read.symm.trans read')⟩

/-- What a message may come to, and the funds after it. -/
inductive Effect (funds : Binary64) (cue : Cue) : Settled → Binary64 → Prop where
  /-- it asks for nothing that is allowed -/
  | refused (message : String) (unasked : ∀ t x, Asks cue t x → ¬ t.Allows funds x) :
    Effect funds cue (.error message) funds
  /-- it asks for the funds -/
  | told (name : cue.name = "balance") : Effect funds cue (.ok (.float funds)) funds
  /-- an amount is moved -/
  | moved {t : Transfer} {x : Binary64} (asked : Asks cue t x) (allowed : t.Allows funds x) :
    Effect funds cue (.ok (.float (t.apply funds x))) (t.apply funds x)

section Table

variable (μ : Type)

/-- The operations of an account under their names. -/
def table : Entries (Operation μ Binary64) := Entries.ofList operations

theorem find?_transfer (t : Transfer) : Entries.find? t.name (table μ) = some (moving t.move) := by
  cases t with
  | deposit =>
    refine (Entries.find?_insert_of_ne (Transfer.name_ne_balance .deposit) _ _).trans ?_
    refine (Entries.find?_insert_of_ne (show "deposit" ≠ "debit" by decide) _ _).trans ?_
    exact Entries.find?_insert_self _ _ _
  | debit =>
    refine (Entries.find?_insert_of_ne (Transfer.name_ne_balance .debit) _ _).trans ?_
    exact Entries.find?_insert_self _ _ _

/-- There are no other operations. -/
theorem find?_table {name : String} {o : Operation μ Binary64}
    (found : Entries.find? name (table μ) = some o) :
    (∃ t : Transfer, name = t.name) ∨
      name = "balance" ∧ o = .typedReader [] fun _ funds m ↦ (.value (.float funds), m) := by
  by_cases balance : name = "balance"
  · subst balance
    exact .inr ⟨rfl, Option.some.inj (found.symm.trans (Entries.find?_insert_self _ _ _))⟩
  · by_cases deposit : name = Transfer.deposit.name
    · exact .inl ⟨_, deposit⟩
    · by_cases debit : name = Transfer.debit.name
      · exact .inl ⟨_, debit⟩
      · have missing : Entries.find? name (table μ) = none := by
          refine (Entries.find?_insert_of_ne balance _ _).trans ?_
          refine (Entries.find?_insert_of_ne debit _ _).trans ?_
          exact Entries.find?_insert_of_ne deposit _ _
        rw [missing] at found
        cases found

end Table

variable {μ : Type} {m : μ} {cue : Cue}

/-- A message under the name of a transfer is run by it. -/
theorem play_transfer (named : cue.name = t.name) : cue.play (table μ) (funds, m) =
    match Arguments.unpack [.float] cue.arguments with
    | .error e => (.error e.message, (funds, m))
    | .ok (x, ()) =>
      match t.move funds x with
      | .error e => (.error e.message, (funds, m))
      | .ok after => (.ok (.float after), (after, m)) := by
  rw [Cue.play, named, find?_transfer]
  simp only [moving, Operation.typedWriter, Operation.run]
  cases Arguments.unpack [.float] cue.arguments with
  | error e => rfl
  | ok args =>
    obtain ⟨x, ⟨⟩⟩ := args
    dsimp only
    cases t.move funds x <;> rfl

/-- One argument is taken, if it converts to a number. -/
theorem unpack_amount {arguments : List Value} : Arguments.unpack [.float] arguments = .ok (x, ()) ↔
    ∃ v, arguments = [v] ∧ Shape.float? v = some x := by
  refine (Arguments.unpack_eq_ok_iff (by decide)).trans ⟨?_, ?_⟩
  · rintro ⟨one, each⟩
    obtain ⟨v, rfl⟩ := List.length_eq_one_iff.mp one
    obtain ⟨w, ⟨⟩, converted⟩ := each 0
    exact ⟨v, rfl, converted⟩
  · rintro ⟨v, rfl, converted⟩
    refine ⟨rfl, fun k ↦ ⟨v, ?_⟩⟩
    obtain rfl : k = 0 := Fin.fin_one_eq_zero k
    exact ⟨rfl, converted⟩

theorem play_of_asks (asked : Asks cue t x) : cue.play (table μ) (funds, m) =
    match t.move funds x with
    | .error e => (.error e.message, (funds, m))
    | .ok after => (.ok (.float after), (after, m)) := by
  rw [play_transfer asked.name, unpack_amount.mpr asked.amount]

/-- What a message comes to. -/
theorem effect_play (cue : Cue) (funds : Binary64) (m : μ) :
    Effect funds cue (cue.play (table μ) (funds, m)).1 (cue.play (table μ) (funds, m)).2.1 := by
  by_cases named : ∃ t : Transfer, cue.name = t.name
  · obtain ⟨t, named⟩ := named
    cases unpacked : Arguments.unpack [.float] cue.arguments with
    | error e =>
      rw [play_transfer named, unpacked]
      refine .refused _ fun t' x asked ↦ ?_
      rw [unpack_amount.mpr asked.amount] at unpacked
      cases unpacked
    | ok args =>
      obtain ⟨x, ⟨⟩⟩ := args
      have asked : Asks cue t x := ⟨named, unpack_amount.mp unpacked⟩
      rw [play_of_asks asked]
      by_cases allowed : t.Allows funds x
      · rw [move_of_allows allowed]
        exact .moved asked allowed
      · obtain ⟨e, refused⟩ := move_of_not_allows allowed
        rw [refused]
        refine .refused _ fun t' x' asked' ↦ ?_
        obtain ⟨rfl, rfl⟩ := asked.unique asked'
        exact allowed
  · have unasked (t : Transfer) (x : Binary64) (asked : Asks cue t x) : ¬ t.Allows funds x :=
      absurd ⟨t, asked.name⟩ named
    cases found : Entries.find? cue.name (table μ) with
    | none =>
      rw [Cue.play_of_unknown found]
      exact .refused _ unasked
    | some o =>
      obtain transfer | ⟨balance, rfl⟩ := find?_table μ found
      · exact absurd transfer named
      · rw [Cue.play, found]
        cases unpacked : Arguments.unpack [] cue.arguments with
        | error e =>
          simp only [Operation.typedReader, Operation.run, unpacked]
          exact .refused _ unasked
        | ok args =>
          simp only [Operation.typedReader, Operation.run, unpacked]
          exact .told balance

/-! ## Funds -/

/-- An amount passes the tests, but the funds are a NaN after it. -/
def Transfer.Spoils (t : Transfer) (funds x : Binary64) : Prop :=
  x.isNaN = true ∨ t = .debit ∧ x = infinity false ∧ funds = infinity false

/-- A message moves such an amount. -/
def Spoils (funds : Binary64) (cue : Cue) : Prop := ∃ t x, Asks cue t x ∧ t.Spoils funds x

/-- Funds that are a number at or above zero. -/
def Held (funds : Binary64) : Prop := (zero false).atMost funds = true

theorem held_iff : Held funds ↔ funds.isNaN = false ∧ 0 ≤ funds.rank := by
  simp [Held, Binary64.atMost_iff]

theorem allows_of_spoils (spoiling : t.Spoils funds x) : t.Allows funds x := by
  rcases spoiling with none | ⟨rfl, rfl, rfl⟩
  · simp [Transfer.Allows, Binary64.atMost, Binary64.less, Binary64.ordered, none]
  · exact ⟨by decide, fun _ ↦ by decide⟩

/-- An amount that is a number and passes the tests is above zero, and there is enough of it. -/
theorem above_of_allows (allowed : t.Allows funds x) (number : x.isNaN = false) :
    (zero false).less x = true ∧ (t = .debit → funds.isNaN = false → x.atMost funds = true) := by
  obtain ⟨above, covered⟩ := allowed
  refine ⟨(Binary64.atMost_eq_false_iff number (Binary64.isNaN_zero false)).mp above, fun debit held ↦ ?_⟩
  exact (Binary64.less_eq_false_iff held number).mp (covered debit)

/-- Funds are lost by the spoiling amounts, and by no others. -/
theorem isNaN_apply_iff (held : Held funds) (allowed : t.Allows funds x) :
    (t.apply funds x).isNaN = true ↔ t.Spoils funds x := by
  obtain ⟨number, high⟩ := held_iff.mp held
  by_cases none : x.isNaN = true
  · refine iff_of_true ?_ (.inl none)
    cases t with
    | deposit => exact Binary64.isNaN_add.mpr (.inr (.inl none))
    | debit => exact Binary64.isNaN_add.mpr (.inr (.inl ((Binary64.isNaN_negate x).trans none)))
  · have amount : x.isNaN = false := Bool.eq_false_of_not_eq_true none
    have above : 0 ≤ x.rank := by
      have less := Binary64.less_iff.mp (above_of_allows allowed amount).1
      exact Int.le_of_lt (by simpa using less.2.2)
    cases t with
    | deposit =>
      refine iff_of_false (fun lost ↦ ?_) (by simp [Transfer.Spoils, amount])
      obtain numberless | numberless | ⟨infinite, infinite', opposite⟩ := Binary64.isNaN_add.mp lost
      · exact Bool.false_ne_true (number.symm.trans numberless)
      · exact none numberless
      · rw [Binary64.eq_infinity infinite high, Binary64.eq_infinity infinite' above] at opposite
        exact opposite rfl
    | debit =>
      constructor
      · intro lost
        obtain numberless | numberless | ⟨infinite, infinite', -⟩ := Binary64.isNaN_add.mp lost
        · exact absurd (number.symm.trans numberless) Bool.false_ne_true
        · exact .inl ((Binary64.isNaN_negate x).symm.trans numberless)
        · rw [Binary64.isInfinite_negate] at infinite'
          exact .inr ⟨rfl, Binary64.eq_infinity infinite' above, Binary64.eq_infinity infinite high⟩
      · rintro (numberless | ⟨-, rfl, rfl⟩)
        · exact absurd numberless none
        · decide

/-- Otherwise they stay a number at or above zero. -/
theorem held_apply (held : Held funds) (allowed : t.Allows funds x) (sound : ¬ t.Spoils funds x) :
    Held (t.apply funds x) := by
  have number : (t.apply funds x).isNaN = false :=
    Bool.eq_false_of_not_eq_true (mt (isNaN_apply_iff held allowed).mp sound)
  obtain ⟨known, high⟩ := held_iff.mp held
  have amount : x.isNaN = false := Bool.eq_false_of_not_eq_true fun none ↦ sound (.inl none)
  obtain ⟨positive, covered⟩ := above_of_allows allowed amount
  have above : 0 ≤ x.rank := Int.le_of_lt (by simpa using (Binary64.less_iff.mp positive).2.2)
  refine held_iff.mpr ⟨number, ?_⟩
  cases t with
  | deposit => exact Binary64.rank_add_nonneg high above
  | debit => exact Binary64.rank_sub_nonneg above (Binary64.atMost_iff.mp (covered rfl known)).2.2

theorem isNaN_apply_of_isNaN (t : Transfer) (lost : funds.isNaN = true) (x : Binary64) :
    (t.apply funds x).isNaN = true := by
  cases t <;> exact Binary64.isNaN_add.mpr (.inl lost)

/-! ## Messages one after another -/

/-- The funds after some messages. -/
def fundsAfter (funds : Binary64) (m : μ) (cues : List Cue) : Binary64 :=
  (serial (table μ) cues (funds, m)).2.1

/-- What a message is answered after some others. -/
def answerAfter (funds : Binary64) (m : μ) (cues : List Cue) (cue : Cue) : Settled :=
  (cue.play (table μ) (serial (table μ) cues (funds, m)).2).1

/-- One of some messages spoils the funds that it meets. -/
def Spoiled (funds : Binary64) (m : μ) (cues : List Cue) : Prop :=
  ∃ i cue, cues[i]? = some cue ∧ Spoils (fundsAfter funds m (cues.take i)) cue

theorem effect_after (funds : Binary64) (m : μ) (cues : List Cue) (cue : Cue) :
    Effect (fundsAfter funds m cues) cue (answerAfter funds m cues cue) (fundsAfter funds m (cues ++ [cue])) := by
  rw [fundsAfter, fundsAfter, answerAfter, serial_concat]
  exact effect_play cue _ _

theorem spoiled_concat (cues : List Cue) : Spoiled funds m (cues ++ [cue]) ↔
    Spoiled funds m cues ∨ Spoils (fundsAfter funds m cues) cue := by
  constructor
  · rintro ⟨i, c, sent, spoiling⟩
    rcases getElem?_concat_cases sent with earlier | ⟨rfl, rfl⟩
    · have before := (List.getElem?_eq_some_iff.mp earlier).1
      rw [List.take_append_of_le_length (Nat.le_of_lt before)] at spoiling
      exact .inl ⟨i, c, earlier, spoiling⟩
    · rw [List.take_left] at spoiling
      exact .inr spoiling
  · rintro (⟨i, c, sent, spoiling⟩ | spoiling)
    · have before := (List.getElem?_eq_some_iff.mp sent).1
      refine ⟨i, c, by rw [List.getElem?_append_left before, sent], ?_⟩
      rwa [List.take_append_of_le_length (Nat.le_of_lt before)]
    · refine ⟨cues.length, cue, List.getElem?_concat_length, ?_⟩
      rwa [List.take_left]

namespace Effect

variable {answer : Settled} {after : Binary64}

/-- A message that asks for a spoiling amount gets it. -/
theorem isNaN_of_spoils (effect : Effect funds cue answer after) (spoiling : Spoils funds cue)
    (held : Held funds) : after.isNaN = true := by
  obtain ⟨t, x, asked, spoiling⟩ := spoiling
  cases effect with
  | refused message unasked => exact absurd (allows_of_spoils spoiling) (unasked t x asked)
  | told name =>
    exact absurd (asked.name.symm.trans name) t.name_ne_balance
  | moved asked' allowed =>
    obtain ⟨rfl, rfl⟩ := asked.unique asked'
    exact (isNaN_apply_iff held allowed).mpr spoiling

theorem isNaN_of_isNaN (effect : Effect funds cue answer after) (lost : funds.isNaN = true) :
    after.isNaN = true := by
  cases effect with
  | refused | told => exact lost
  | moved asked allowed => exact isNaN_apply_of_isNaN _ lost _

theorem held (effect : Effect funds cue answer after) (held : Held funds) (sound : ¬ Spoils funds cue) :
    Held after := by
  cases effect with
  | refused | told => exact held
  | moved asked allowed => exact held_apply held allowed fun spoiling ↦ sound ⟨_, _, asked, spoiling⟩

end Effect

/-- Funds stay a number at or above zero until a message spoils them, and a NaN after that. -/
theorem fundsAfter_cases (start : Held funds) (m : μ) (cues : List Cue) :
    Spoiled funds m cues ∧ (fundsAfter funds m cues).isNaN = true ∨
      ¬ Spoiled funds m cues ∧ Held (fundsAfter funds m cues) := by
  induction cues using List.reverseRecOn with
  | nil =>
    refine .inr ⟨?_, start⟩
    rintro ⟨i, cue, ⟨⟩, -⟩
  | append_singleton cues cue ih =>
    have effect := effect_after funds m cues cue
    rw [spoiled_concat]
    rcases ih with ⟨spoiled, lost⟩ | ⟨sound, held⟩
    · exact .inl ⟨.inl spoiled, effect.isNaN_of_isNaN lost⟩
    · by_cases spoiling : Spoils (fundsAfter funds m cues) cue
      · exact .inl ⟨.inr spoiling, effect.isNaN_of_spoils spoiling held⟩
      · exact .inr ⟨not_or.mpr ⟨sound, spoiling⟩, effect.held held spoiling⟩

/-- What an account may do when a message comes. -/
structure Guarded (funds : Binary64) (cue : Cue) (answer : Settled) (after : Binary64) : Prop where
  /-- an error leaves the funds as they are -/
  refused : ∀ message, answer = .error message → after = funds
  /-- an accepted amount is moved, and the answer is the funds after; an amount that is a number is above
  zero, and at most the funds if it is taken from them -/
  accepted : ∀ (t : Transfer) v, cue.name = t.name → answer = .ok v →
    ∃ x, Asks cue t x ∧ v = .float after ∧ after = t.apply funds x ∧
      (x.isNaN = false → (zero false).less x = true ∧
        (t = .debit → funds.isNaN = false → x.atMost funds = true))

theorem Effect.guarded {answer : Settled} {after : Binary64} (effect : Effect funds cue answer after) :
    Guarded funds cue answer after where
  refused message error := by
    cases effect with
    | refused => rfl
    | told | moved => cases error
  accepted t v named value := by
    cases effect with
    | refused => cases value
    | told name => exact absurd (named.symm.trans name) t.name_ne_balance
    | @moved t' x asked allowed =>
      obtain rfl : t = t' := Transfer.name_injective (named.symm.trans asked.name)
      cases value
      exact ⟨x, asked, rfl, rfl, above_of_allows allowed⟩

/-- Whatever messages an account gets, one at a time, its funds are a number at or above zero unless one of
them moved an amount that spoils them; errors leave them as they are, and the amounts that are accepted are
above zero and not more than the funds they are taken from. -/
theorem funds_guarded (start : (zero false).atMost funds = true) (m : μ) (cues : List Cue) :
    ((fundsAfter funds m cues).isNaN = true ↔ Spoiled funds m cues) ∧
      ((fundsAfter funds m cues).isNaN = false → (zero false).atMost (fundsAfter funds m cues) = true) ∧
      ∀ cue, Guarded (fundsAfter funds m cues) cue (answerAfter funds m cues cue)
        (fundsAfter funds m (cues ++ [cue])) := by
  refine ⟨?_, ?_, fun cue ↦ (effect_after funds m cues cue).guarded⟩
  · rcases fundsAfter_cases start m cues with ⟨spoiled, lost⟩ | ⟨sound, held⟩
    · exact iff_of_true lost spoiled
    · exact iff_of_false (by simp [(held_iff.mp held).1]) sound
  · intro number
    rcases fundsAfter_cases start m cues with ⟨spoiled, lost⟩ | ⟨sound, held⟩
    · exact absurd (number.symm.trans lost) Bool.false_ne_true
    · exact held

/-- A deposit, two debits that are refused, and one that leaves a rest. -/
def visit : List Cue :=
  [⟨"deposit", [.string "2.5"]⟩, ⟨"debit", [.string "-1"]⟩, ⟨"debit", [.int 103]⟩, ⟨"debit", [.uint 100]⟩]

theorem funds_guarded_visit :
    (zero false).atMost (.ofNat 100) = true ∧ ¬ Spoiled (.ofNat 100) () visit ∧
      fundsAfter (.ofNat 100) () (visit ++ [⟨"debit", [.int 3]⟩]) = fundsAfter (.ofNat 100) () visit ∧
      ∃ x, Asks ⟨"debit", [.string "2"]⟩ .debit x ∧ x.atMost (fundsAfter (.ofNat 100) () visit) = true := by
  have start : (zero false).atMost (.ofNat 100) = true := by decide +kernel
  have number : (fundsAfter (.ofNat 100) () visit).isNaN = false := by decide +kernel
  obtain ⟨spoiled, -, guarded⟩ := funds_guarded start () visit
  have short : answerAfter (.ofNat 100) () visit ⟨"debit", [.int 3]⟩ = .error "not enough funds" := by
    decide +kernel
  have taken : answerAfter (.ofNat 100) () visit ⟨"debit", [.string "2"]⟩ =
      .ok (.float ⟨0x3FE0000000000000⟩) := by decide +kernel
  obtain ⟨x, asked, -, -, covered⟩ := (guarded ⟨"debit", [.string "2"]⟩).accepted .debit _ rfl taken
  have amount : x = .ofNat 2 := by
    obtain ⟨v, ⟨⟩, read⟩ := asked.amount
    exact Option.some.inj (read.symm.trans (by decide +kernel))
  refine ⟨start, mt spoiled.mpr (by simp [number]), (guarded _).refused _ short, x, asked, ?_⟩
  exact (covered (by rw [amount]; decide +kernel)).2 rfl number

/-- A NaN may be paid in, and an infinite amount may be taken from infinite funds. -/
theorem funds_lost :
    (zero false).atMost (.ofNat 100) = true ∧ (zero false).atMost (infinity false) = true ∧
      answerAfter (.ofNat 100) () [] ⟨"deposit", [.string "NaN"]⟩ = .ok (.float .nan) ∧
      fundsAfter (.ofNat 100) () [⟨"deposit", [.string "NaN"]⟩] = .nan ∧
      fundsAfter (infinity false) () [⟨"debit", [.string "inf"]⟩] = .nan := by
  decide +kernel

end Troupe.Account
