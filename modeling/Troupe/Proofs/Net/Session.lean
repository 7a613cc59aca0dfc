import Troupe.Proofs.Net.Requester

/-!
# Sessions of a requester

A requester is shared by those who send, by the task that writes and by the task that reads.  A send whose
arguments can be written draws an id, enters its promise among those that wait, and hands its request over;
between any two of these others may act, and the connection may be lost.  A session is a requester with all
sends, numbered in the order in which they drew their ids, and all settlements.

* Those who wait do so under ids of their own, and each send that has entered waits or was settled, once
  (`Sound`).
* What an event settles, and with what, is `Due`.

The main statement is `requests_conserved`.
-/

namespace Troupe.Net

open Requester

/-! ## Sessions -/

/-- How far a send got. -/
inductive Phase where
  /-- it has an id -/
  | drawn
  /-- its promise waits or was settled, and its request is not handed over -/
  | entered
  /-- it has returned its promise -/
  | returned
deriving DecidableEq

/-- A send. -/
structure Send where
  /-- its id -/
  id : UInt64
  /-- the name of the operation -/
  operation : String
  /-- the arguments -/
  arguments : List Data
  /-- the bytes that the arguments are written as -/
  payload : Bytes
  /-- how far it got -/
  phase : Phase

/-- A requester, those who send, and what came of it.  Promises are named by the number of the send. -/
structure Session where
  /-- the requester -/
  requester : Requester Nat
  /-- the sends, in the order of their ids -/
  sends : List Send
  /-- the promises that were settled, the oldest first -/
  settled : Settlements Nat

namespace Session

/-- What one of the parties does at an instant. -/
inductive Event where
  /-- a send whose arguments can be written draws an id -/
  | draw (operation : String) (arguments : List Data)
  /-- a send asks whether the connection is lost, and enters its promise if not -/
  | enter (n : Nat)
  /-- a send hands its request over -/
  | handOver (n : Nat)
  /-- the task that writes takes the next request -/
  | write
  /-- the task that reads takes a frame -/
  | receive (parts : Parts)
  /-- a task sees that the connection is lost -/
  | lose
  /-- the task that writes gives up -/
  | stop

/-- A session in which nothing happened. -/
def start (codec : Codec) (limit : Nat) : Session := ⟨.start codec limit, [], []⟩

/-- The parts of the request of a send. -/
def parts (s : Session) (send : Send) : Parts :=
  Request.parts (idBytes send.id) send.operation s.requester.codec.name send.payload

/-- What a requester did is noted. -/
def after (s : Session) (x : Settlements Nat × Requester Nat) : Session :=
  { s with requester := x.2, settled := s.settled ++ x.1 }

/-- A send gets further. -/
def move (s : Session) (n : Nat) (phase : Phase) : Session :=
  { s with sends := s.sends.modify n fun send ↦ { send with phase } }

/-- What comes of one event, if it can happen. -/
def step? (s : Session) : Event → Option Session
  | .draw operation arguments =>
    match s.requester.codec.encode (.list arguments) with
    | .error _ => none
    | .ok payload =>
      some { s with
        requester := s.requester.draw.2
        sends := s.sends ++ [⟨s.requester.draw.1, operation, arguments, payload, .drawn⟩] }
  | .enter n =>
    match s.sends[n]? with
    | some ⟨id, _, _, _, .drawn⟩ =>
      some ((s.move n (if s.requester.closed then .returned else .entered)).after (s.requester.enter id n))
    | _ => none
  | .handOver n =>
    match s.sends[n]? with
    | some ⟨id, operation, _, payload, .entered⟩ =>
      some ((s.move n .returned).after (s.requester.handOver id operation payload))
    | _ => none
  | .write => some (s.after s.requester.writeNext.2)
  | .receive parts => some (s.after (s.requester.receive parts))
  | .lose => some (s.after s.requester.close)
  | .stop => some (s.after s.requester.stop)

/-- What comes of events one after the other. -/
def run? (s : Session) : List Event → Option Session
  | [] => some s
  | e :: rest => (s.step? e).bind fun s ↦ s.run? rest

/-- The results that the promise of a send got. -/
def results (s : Session) (n : Nat) : List (Except String Data) :=
  (s.settled.filter (·.1 = n)).map Prod.snd

/-- The number of promises that a send has by now: one if it has entered. -/
def entered (s : Session) (n : Nat) : Nat :=
  (s.sends[n]?.map fun send ↦ if send.phase = .drawn then 0 else 1).getD 0

/-- What a send that draws an id leaves. -/
theorem exists_of_draw {s s' : Session} {operation : String} {arguments : List Data}
    (step : s.step? (.draw operation arguments) = some s') :
    ∃ payload, s.requester.codec.encode (.list arguments) = .ok payload ∧
      { s with
        requester := s.requester.draw.2
        sends := s.sends ++ [⟨s.requester.draw.1, operation, arguments, payload, .drawn⟩] } = s' := by
  rw [step?] at step
  split at step
  · cases step
  · next payload written => exact ⟨payload, written, Option.some.inj step⟩

section Moves

variable (s : Session) (n : Nat) (phase : Phase)

theorem getElem?_move (m : Nat) :
    (s.move n phase).sends[m]? =
      s.sends[m]?.map fun send ↦ if n = m then { send with phase } else send := by
  rw [move, List.getElem?_modify]
  rfl

/-- A send that gets further keeps its id, its request and its number. -/
theorem exists_send_move {m : Nat} {send : Send} (found : s.sends[m]? = some send) :
    ∃ send', (s.move n phase).sends[m]? = some send' ∧ send'.id = send.id ∧
      s.parts send' = s.parts send := by
  rw [getElem?_move, found, Option.map_some]
  refine ⟨_, rfl, ?_⟩
  split <;> exact ⟨rfl, rfl⟩

theorem exists_send_of_move {m : Nat} {send : Send} (found : (s.move n phase).sends[m]? = some send) :
    ∃ send', s.sends[m]? = some send' ∧ send'.id = send.id := by
  rw [getElem?_move] at found
  obtain ⟨send', before, rfl⟩ := Option.map_eq_some_iff.mp found
  refine ⟨send', before, ?_⟩
  split <;> rfl

theorem entered_move_of_ne {m : Nat} (apart : n ≠ m) : (s.move n phase).entered m = s.entered m := by
  rw [entered, getElem?_move, entered, Option.map_map]
  simp [apart, Function.comp_def]

theorem entered_move_self {send : Send} (found : s.sends[n]? = some send) (inside : phase ≠ .drawn) :
    (s.move n phase).entered n = 1 := by
  simp [entered, getElem?_move, found, inside]

@[simp] theorem length_move : (s.move n phase).sends.length = s.sends.length :=
  List.length_modify ..

theorem move_last (requester : Requester Nat) (sends : List Send) (send : Send)
    (settled : Settlements Nat) :
    (⟨requester, sends ++ [send], settled⟩ : Session).move sends.length phase =
      ⟨requester, sends ++ [{ send with phase }], settled⟩ := by
  simp [move, List.modify_eq_take_cons_drop]

/-- The parts of a send that nobody interrupts. -/
def sendEvents (operation : String) (arguments : List Data) : List Event :=
  [.draw operation arguments, .enter s.sends.length] ++
    if s.requester.closed then [] else [.handOver s.sends.length]

/-- A send that nobody interrupts does its parts one after the other. -/
theorem send_eq_run (operation : String) {arguments : List Data} {payload : Bytes}
    (written : s.requester.codec.encode (.list arguments) = .ok payload) :
    (s.run? (s.sendEvents operation arguments)).map (fun s' ↦ (s'.settled, s'.requester)) =
      some (s.settled ++ (s.requester.send s.sends.length operation arguments).1,
        (s.requester.send s.sends.length operation arguments).2) := by
  by_cases gone : s.requester.closed
  · simp [sendEvents, run?, step?, written, draw, enter, send, register, after, move, gone]
  · simp [sendEvents, run?, step?, written, draw, enter, send, register, after, gone, move_last]

end Moves

/-- Ids of sends that are not too many do not repeat. -/
theorem ofNat_inj {m n : Nat} (hm : m < 2 ^ 64) (hn : n < 2 ^ 64)
    (same : UInt64.ofNat m = UInt64.ofNat n) : m = n := by
  have numbers := congrArg UInt64.toNat same
  rwa [UInt64.toNat_ofNat_of_lt' hm, UInt64.toNat_ofNat_of_lt' hn] at numbers

/-- What holds between any two events, as long as ids do not repeat. -/
structure Sound (s : Session) : Prop where
  /-- the next id is the number of sends -/
  nextId : s.requester.nextId = UInt64.ofNat s.sends.length
  /-- the id of a send is its number -/
  ids : ∀ {n send}, s.sends[n]? = some send → send.id = UInt64.ofNat n
  /-- who waits, waits under the id of the send -/
  pending : ∀ {id n}, (id, n) ∈ s.requester.pending → ∃ send, s.sends[n]? = some send ∧ send.id = id
  /-- who entered waits or was settled, once -/
  once : ∀ n, (s.requester.pending.map Prod.snd).count n + (s.settled.map Prod.fst).count n = s.entered n
  /-- nobody waits when the connection is lost -/
  closed : s.requester.closed = true → s.requester.pending = []
  /-- what is to be written are requests of sends -/
  outgoing : ∀ parts ∈ s.requester.outgoing, ∃ (n : Nat) (send : Send), s.sends[n]? = some send ∧
    parts = s.parts send

theorem sound_start (codec : Codec) (limit : Nat) : (start codec limit).Sound := by
  constructor <;> simp [start, Requester.start, entered]

namespace Sound

variable {s : Session} {n : Nat}

/-- A send has entered once at most. -/
theorem entered_le_one (s : Session) (n : Nat) : s.entered n ≤ 1 := by
  rw [entered]
  cases s.sends[n]? with
  | none => exact Nat.zero_le 1
  | some send =>
    rw [Option.map_some, Option.getD_some]
    split <;> omega

/-- Nobody waits twice. -/
theorem nodup_pending (h : s.Sound) : (s.requester.pending.map Prod.snd).Nodup :=
  List.nodup_iff_count_le_one.mpr fun n ↦ by
    have once := h.once n
    have bound := entered_le_one s n
    omega

/-- Who waits is one of those who send. -/
theorem lt_of_pending (h : s.Sound) {id : UInt64} (waits : (id, n) ∈ s.requester.pending) :
    n < s.sends.length ∧ id = UInt64.ofNat n := by
  obtain ⟨send, found, rfl⟩ := h.pending waits
  exact ⟨(List.getElem?_eq_some_iff.mp found).1, h.ids found⟩

/-- Those who wait do so under ids of their own. -/
theorem distinct (h : s.Sound) (few : s.sends.length < 2 ^ 64) :
    (s.requester.pending.map Prod.fst).Nodup := by
  -- An id is the number of its send, cut to a word; few numbers are not cut.
  have byNumber : s.requester.pending.map Prod.fst =
      (s.requester.pending.map Prod.snd).map UInt64.ofNat := by
    rw [List.map_map]
    exact List.map_congr_left fun p waits ↦ (h.lt_of_pending waits).2
  rw [byNumber]
  refine h.nodup_pending.map_on fun m waits m' waits' same ↦ ?_
  obtain ⟨p, among, rfl⟩ := List.mem_map.mp waits
  obtain ⟨p', among', rfl⟩ := List.mem_map.mp waits'
  exact ofNat_inj ((h.lt_of_pending among).1.trans few) ((h.lt_of_pending among').1.trans few) same

/-- Those who wait may be settled. -/
theorem after (h : s.Sound) {x : Settlements Nat × Requester Nat} (retires : s.requester.Retires x) :
    (s.after x).Sound where
  nextId := retires.nextId.trans h.nextId
  ids := h.ids
  pending waits := h.pending (retires.fewer waits)
  once n := by
    have before := h.once n
    have moved := retires.count n
    simp only [Session.after, List.map_append, List.count_append]
    change _ = s.entered n
    omega
  closed := retires.closed h.closed
  outgoing parts left := by
    obtain ⟨n, send, found, rfl⟩ := h.outgoing parts (retires.outgoing left)
    refine ⟨n, send, found, ?_⟩
    rw [Session.parts, Session.parts]
    simp only [Session.after, retires.settings.1]

/-- The sends after one more drew its id. -/
def drawn (s : Session) (operation : String) (arguments : List Data) (payload : Bytes) : List Send :=
  s.sends ++ [⟨s.requester.nextId, operation, arguments, payload, .drawn⟩]

/-- A send may draw an id. -/
theorem draw (h : s.Sound) (operation : String) (arguments : List Data) (payload : Bytes) :
    (⟨s.requester.draw.2, drawn s operation arguments payload, s.settled⟩ : Session).Sound := by
  have old {n : Nat} {send : Send} (found : s.sends[n]? = some send) :
      (drawn s operation arguments payload)[n]? = some send := by
    rw [drawn, List.getElem?_append_left (List.getElem?_eq_some_iff.mp found).1, found]
  refine ⟨?_, fun {n send} found ↦ ?_, fun waits ↦ ?_, fun n ↦ ?_, h.closed, fun parts left ↦ ?_⟩
  · simp only [Requester.draw, drawn, h.nextId, List.length_append, List.length_singleton]
    exact (UInt64.ofNat_add ..).symm
  · simp only [drawn, List.getElem?_append] at found
    split at found
    · exact h.ids found
    · rename_i beyond
      rw [List.getElem?_singleton] at found
      split at found
      · obtain rfl : n = s.sends.length := by omega
        cases found
        exact h.nextId
      · cases found
  · obtain ⟨send, found, same⟩ := h.pending waits
    exact ⟨send, old found, same⟩
  · refine (h.once n).trans ?_
    simp only [entered, drawn, List.getElem?_append]
    split
    · rfl
    · rename_i beyond
      rw [List.getElem?_eq_none (Nat.le_of_not_lt beyond), List.getElem?_singleton]
      by_cases last : n - s.sends.length = 0 <;> simp [last]
  · obtain ⟨n, send, found, same⟩ := h.outgoing parts left
    exact ⟨n, send, old found, same⟩

/-- A send may get further.  If it enters, it waits or is settled from now on, and nothing else happens to
those who wait. -/
theorem move (h : s.Sound) {send : Send} (found : s.sends[n]? = some send) (phase : Phase)
    (inside : phase ≠ .drawn) {x : Settlements Nat × Requester Nat}
    (nextId : x.2.nextId = s.requester.nextId) (outgoing : x.2.outgoing = s.requester.outgoing)
    (codec : x.2.codec = s.requester.codec)
    (pending : ∀ p ∈ x.2.pending, p ∈ s.requester.pending ∨ p = (send.id, n))
    (count : ∀ m, (x.2.pending.map Prod.snd).count m + (x.1.map Prod.fst).count m =
      (s.requester.pending.map Prod.snd).count m + if n = m then 1 - s.entered n else 0)
    (closed : x.2.closed = true → x.2.pending = []) : ((s.move n phase).after x).Sound where
  nextId := by
    rw [Session.after, length_move]
    exact nextId.trans h.nextId
  ids found := by
    obtain ⟨send, before, same⟩ := exists_send_of_move s n phase found
    exact same ▸ h.ids before
  pending {id m} waits := by
    have before : ∃ send, s.sends[m]? = some send ∧ send.id = id := by
      rcases pending _ waits with old | new
      · exact h.pending old
      · obtain ⟨rfl, rfl⟩ := Prod.mk.inj new
        exact ⟨send, found, rfl⟩
    obtain ⟨send, before, rfl⟩ := before
    obtain ⟨send', now, same, -⟩ := exists_send_move s n phase before
    exact ⟨send', now, same⟩
  once m := by
    have before := h.once m
    have moved := count m
    have now : ((s.move n phase).after x).entered m =
        s.entered m + if n = m then 1 - s.entered n else 0 := by
      change (s.move n phase).entered m = _
      split
      · rename_i same
        subst same
        have once := entered_le_one s n
        rw [entered_move_self s n phase found inside]
        omega
      · rename_i apart
        rw [entered_move_of_ne s n phase apart, Nat.add_zero]
    rw [now]
    simp only [Session.after, Session.move, List.map_append, List.count_append] at moved ⊢
    omega
  closed := closed
  outgoing parts left := by
    obtain ⟨m, send, before, rfl⟩ := h.outgoing parts (outgoing ▸ left)
    obtain ⟨send', now, -, same⟩ := exists_send_move s n phase before
    refine ⟨m, send', now, same.symm.trans ?_⟩
    simp only [Session.parts, Session.after, Session.move, codec]

/-- A send that has entered may return its promise. -/
theorem returned (h : s.Sound) {send : Send} (found : s.sends[n]? = some send)
    (inside : send.phase ≠ .drawn) : (s.move n .returned).Sound := by
  have entered : s.entered n = 1 := by simp [Session.entered, found, inside]
  have moved := h.move found .returned (x := ([], s.requester)) (by decide) rfl rfl rfl
    (fun _ ↦ .inl) (fun m ↦ by simp [entered]) h.closed
  rwa [Session.after, List.append_nil] at moved

/-- The request of a send may be handed over. -/
theorem outgo (h : s.Sound) {send : Send} (found : s.sends[n]? = some send) :
    (s.after ([], { s.requester with outgoing := s.requester.outgoing ++ [s.parts send] })).Sound where
  nextId := h.nextId
  ids := h.ids
  pending := h.pending
  once m := by
    rw [Session.after, List.append_nil]
    exact h.once m
  closed := h.closed
  outgoing parts left := by
    rcases List.mem_append.mp left with old | new
    · exact h.outgoing parts old
    · exact ⟨n, send, found, List.mem_singleton.mp new⟩

/-- Every event keeps this, as long as ids do not repeat. -/
theorem step (h : s.Sound) (few : s.sends.length < 2 ^ 64) {e : Event} {s' : Session}
    (step : s.step? e = some s') : s'.Sound := by
  cases e with
  | draw operation arguments =>
    obtain ⟨payload, -, rfl⟩ := exists_of_draw step
    exact h.draw operation arguments payload
  | enter n =>
    simp only [step?] at step
    split at step
    · rename_i found
      cases step
      have outside : s.entered n = 0 := by simp [entered, found]
      rw [Requester.enter]
      split
      · rename_i gone
        refine h.move found _ (by decide) rfl rfl rfl (fun p ↦ .inl) (fun m ↦ ?_) fun _ ↦ h.closed gone
        simp [List.count_singleton, outside]
      · rename_i going
        refine h.move found _ (by decide) rfl rfl rfl (fun p waits ↦ ?_) (fun m ↦ ?_) fun gone ↦
          absurd gone going
        · simpa using waits
        · simp [List.count_singleton, outside]
    · cases step
  | handOver n =>
    simp only [step?] at step
    split at step
    · rename_i found
      cases step
      have moved := h.returned found (by simp)
      rw [Requester.handOver]
      split
      · exact moved.after (retires_settle (moved.distinct (by simpa using few)) _ _)
      · obtain ⟨send, now, -, parts⟩ := exists_send_move s n .returned found
        have out := moved.outgo now
        rw [show (s.move n .returned).parts send = s.parts _ from parts] at out
        exact out
    · cases step
  | write =>
    cases step
    exact h.after (retires_writeNext (h.distinct few))
  | receive parts =>
    cases step
    exact h.after (retires_receive (h.distinct few) parts)
  | lose =>
    cases step
    exact h.after (retires_close _)
  | stop =>
    cases step
    exact h.after (retires_stop _)

end Sound

/-! ## What an event settles -/

/-- What is settled by an event, and with what. -/
inductive Due (s : Session) : Event → Nat → Except String Data → Prop where
  /-- a send that enters when the connection is lost -/
  | refused (n : Nat) (gone : s.requester.closed = true) : Due s (.enter n) n (.error "connection closed")
  /-- a send whose request nobody writes any more -/
  | undelivered (n : Nat) (send : Send) (found : s.sends[n]? = some send)
      (stopped : s.requester.stopped = true) (waits : (send.id, n) ∈ s.requester.pending) :
      Due s (.handOver n) n (.error "connection closed")
  /-- a send whose request is written and too large for a frame -/
  | oversized (n : Nat) (send : Send) (rest : List Parts) (found : s.sends[n]? = some send)
      (next : s.requester.outgoing = s.parts send :: rest)
      (large : s.requester.limit < Frame.size (s.parts send))
      (waits : (send.id, n) ∈ s.requester.pending) :
      Due s .write n (.error (Frame.oversized (Frame.size (s.parts send)) s.requester.limit).message)
  /-- a send whose id the frame carries -/
  | answered (id : UInt64) (n : Nat) (parts : Parts) (carries : frameId? parts = some id)
      (waits : (id, n) ∈ s.requester.pending) :
      Due s (.receive parts) n (Answer.result s.requester.codec parts)
  /-- all who wait when the connection is lost -/
  | lost (id : UInt64) (n : Nat) (waits : (id, n) ∈ s.requester.pending) :
      Due s .lose n (.error "connection closed")
  /-- all who wait when the task that writes gives up -/
  | stopped (id : UInt64) (n : Nat) (waits : (id, n) ∈ s.requester.pending) :
      Due s .stop n (.error "connection closed")

/-- An event settles what is due, and nothing else. -/
def Settles (s s' : Session) (e : Event) : Prop :=
  ∃ new, s'.settled = s.settled ++ new ∧ ∀ n r, (n, r) ∈ new ↔ s.Due e n r

namespace Sound

variable {s s' : Session} {n : Nat}

/-- Nobody waits under the id of a send but the send itself. -/
theorem eq_of_pending (h : s.Sound) (few : s.sends.length < 2 ^ 64) {send : Send}
    (found : s.sends[n]? = some send) {m : Nat} (waits : (send.id, m) ∈ s.requester.pending) : m = n := by
  obtain ⟨bound, id⟩ := h.lt_of_pending waits
  have within := (List.getElem?_eq_some_iff.mp found).1
  exact ofNat_inj (bound.trans few) (within.trans few) (id.symm.trans (h.ids found))

/-- Losing the connection settles who waits. -/
theorem mem_close_iff {s : Session} {n : Nat} {r : Except String Data} :
    (n, r) ∈ s.requester.close.1 ↔ ∃ id, (id, n) ∈ s.requester.pending ∧ r = .error "connection closed" := by
  simp only [close, List.mem_map, Prod.mk.injEq]
  constructor
  · rintro ⟨⟨id, m⟩, waits, rfl, rfl⟩
    exact ⟨id, waits, rfl⟩
  · rintro ⟨id, waits, rfl⟩
    exact ⟨(id, n), waits, rfl, rfl⟩

theorem settles_enter (step : s.step? (.enter n) = some s') : s.Settles s' (.enter n) := by
  simp only [step?] at step
  split at step
  · rename_i id operation arguments payload found
    cases step
    refine ⟨(s.requester.enter id n).1, rfl, fun m r ↦ ?_⟩
    rw [Requester.enter]
    split
    · rename_i gone
      rw [List.mem_singleton, Prod.mk.injEq]
      constructor
      · rintro ⟨rfl, rfl⟩
        exact .refused m gone
      · rintro ⟨⟩
        exact ⟨rfl, rfl⟩
    · rename_i going
      refine ⟨fun absent ↦ by simp at absent, ?_⟩
      rintro ⟨⟩
      contradiction
  · cases step

theorem settles_handOver (h : s.Sound) (few : s.sends.length < 2 ^ 64)
    (step : s.step? (.handOver n) = some s') : s.Settles s' (.handOver n) := by
  simp only [step?] at step
  split at step
  · rename_i id operation arguments payload found
    cases step
    refine ⟨(s.requester.handOver id operation payload).1, rfl, fun m r ↦ ?_⟩
    rw [Requester.handOver]
    split
    · rename_i stopped
      rw [mem_settle_iff (h.distinct few)]
      constructor
      · rintro ⟨waits, rfl⟩
        obtain rfl := h.eq_of_pending few found waits
        exact .undelivered m _ found stopped waits
      · intro due
        cases due with
        | undelivered n send found' stopped waits =>
          obtain rfl := Option.some.inj (found.symm.trans found')
          exact ⟨waits, rfl⟩
    · refine ⟨fun absent ↦ by simp at absent, ?_⟩
      rintro ⟨⟩
      contradiction
  · cases step

theorem settles_write (h : s.Sound) (few : s.sends.length < 2 ^ 64) :
    s.Settles (s.after s.requester.writeNext.2) .write := by
  refine ⟨s.requester.writeNext.2.1, rfl, fun n r ↦ ?_⟩
  cases all : s.requester.outgoing with
  | nil =>
    rw [writeNext, all]
    refine ⟨fun absent ↦ by simp at absent, fun due ↦ ?_⟩
    cases due with
    | oversized n send rest found next large waits => simp [all] at next
  | cons parts rest =>
    -- What is written next is the request of some send, and its id tells which.
    obtain ⟨m, send, found, rfl⟩ := h.outgoing parts (all ▸ List.mem_cons_self ..)
    have same {send' : Send} {rest' : List Parts} (next : s.requester.outgoing = s.parts send' :: rest') :
        send'.id = send.id := by
      have parts := (List.cons.inj (all.symm.trans next)).1
      have ids := congrArg frameId? parts
      rw [Session.parts, Session.parts, frameId?_parts, frameId?_parts] at ids
      exact (Option.some.inj ids).symm
    by_cases large : s.requester.limit < Frame.size (s.parts send)
    · have written : s.requester.writeNext.2.1 = (s.requester.settle send.id
          (.error (Frame.oversized (Frame.size (s.parts send)) s.requester.limit).message)).1 := by
        rw [writeNext_of_large all large (frameId?_parts send.id _ _ _)]
        rfl
      rw [written, mem_settle_iff (h.distinct few)]
      constructor
      · rintro ⟨waits, rfl⟩
        obtain rfl := h.eq_of_pending few found waits
        exact .oversized n send rest found all large waits
      · intro due
        cases due with
        | oversized n send' rest' found' next large' waits =>
          have parts := (List.cons.inj (all.symm.trans next)).1
          rw [← same next, parts]
          exact ⟨waits, rfl⟩
    · have written : s.requester.writeNext.2.1 = [] := by
        rw [writeNext_of_fits all (Nat.le_of_not_lt large)]
      rw [written]
      refine ⟨fun absent ↦ by simp at absent, fun due ↦ ?_⟩
      cases due with
      | oversized n send' rest' found' next large' waits =>
        have parts := (List.cons.inj (all.symm.trans next)).1
        exact absurd (parts ▸ large') large

theorem settles_receive (h : s.Sound) (few : s.sends.length < 2 ^ 64) (parts : Parts) :
    s.Settles (s.after (s.requester.receive parts)) (.receive parts) := by
  refine ⟨(s.requester.receive parts).1, rfl, fun n r ↦ ?_⟩
  rw [receive]
  split
  · rename_i unusable
    refine ⟨fun absent ↦ by simp at absent, fun due ↦ ?_⟩
    cases due with
    | answered id n parts carries waits => simp [unusable] at carries
  · rename_i id carries
    rw [mem_settle_iff (h.distinct few)]
    constructor
    · rintro ⟨waits, rfl⟩
      exact .answered id n parts carries waits
    · intro due
      cases due with
      | answered id' n parts carries' waits =>
        obtain rfl := Option.some.inj (carries.symm.trans carries')
        exact ⟨waits, rfl⟩

/-- Every event settles what is due, and nothing else. -/
theorem settles (h : s.Sound) (few : s.sends.length < 2 ^ 64) {e : Event}
    (step : s.step? e = some s') : s.Settles s' e := by
  cases e with
  | draw operation arguments =>
    obtain ⟨payload, -, rfl⟩ := exists_of_draw step
    refine ⟨[], (List.append_nil _).symm, fun n r ↦ ⟨fun absent ↦ by simp at absent, ?_⟩⟩
    rintro ⟨⟩
  | enter n => exact settles_enter step
  | handOver n => exact h.settles_handOver few step
  | write =>
    cases step
    exact h.settles_write few
  | receive parts =>
    cases step
    exact h.settles_receive few parts
  | lose =>
    cases step
    refine ⟨s.requester.close.1, rfl, fun n r ↦ mem_close_iff.trans ⟨?_, fun due ↦ ?_⟩⟩
    · rintro ⟨id, waits, rfl⟩
      exact .lost id n waits
    · cases due with
      | lost id n waits => exact ⟨id, waits, rfl⟩
  | stop =>
    cases step
    refine ⟨s.requester.stop.1, rfl, fun n r ↦ (mem_close_iff (s := s)).trans ⟨?_, fun due ↦ ?_⟩⟩
    · rintro ⟨id, waits, rfl⟩
      exact .stopped id n waits
    · cases due with
      | stopped id n waits => exact ⟨id, waits, rfl⟩

end Sound

/-! ## What lasts -/

/-- What an event leaves as it is. -/
structure Extends (s s' : Session) : Prop where
  /-- the codec and the limit stay -/
  settings : s'.requester.codec = s.requester.codec ∧ s'.requester.limit = s.requester.limit
  /-- a connection that is lost stays lost -/
  closed : s.requester.closed = true → s'.requester.closed = true
  /-- nobody gives up writing unless the connection is lost -/
  stopped : s'.requester.stopped = true → s.requester.stopped = true ∨ s'.requester.closed = true
  /-- a send only gets further, and stays as it is once it has returned its promise -/
  sends : ∀ {n : Nat} {send : Send}, s.sends[n]? = some send →
    ∃ phase, s'.sends[n]? = some { send with phase } ∧ (send.phase = .returned → phase = .returned)

section Lasting

variable {s s' : Session} {n : Nat}

theorem extends_refl (s : Session) : s.Extends s :=
  ⟨⟨rfl, rfl⟩, id, .inl, fun {_ send} found ↦ ⟨send.phase, found, id⟩⟩

theorem extends_after {x : Settlements Nat × Requester Nat} (retires : s.requester.Retires x) :
    s.Extends (s.after x) :=
  ⟨retires.settings, retires.stays, retires.stopped, fun {_ send} found ↦ ⟨send.phase, found, id⟩⟩

theorem extends_move {send : Send} (found : s.sends[n]? = some send) (going : send.phase ≠ .returned)
    (phase : Phase) {x : Settlements Nat × Requester Nat}
    (settings : x.2.codec = s.requester.codec ∧ x.2.limit = s.requester.limit)
    (closed : x.2.closed = s.requester.closed) (stopped : x.2.stopped = s.requester.stopped) :
    s.Extends ((s.move n phase).after x) := by
  refine ⟨settings, fun gone ↦ closed.trans gone, fun gone ↦ .inl (stopped.symm.trans gone),
    fun {m other} there ↦ ?_⟩
  have now : ((s.move n phase).after x).sends[m]? =
      some (if n = m then { other with phase } else other) := by
    change (s.move n phase).sends[m]? = _
    rw [getElem?_move, there, Option.map_some]
  by_cases same : n = m
  · subst same
    obtain rfl := Option.some.inj (found.symm.trans there)
    exact ⟨phase, by rw [now, if_pos rfl], fun ended ↦ absurd ended going⟩
  · exact ⟨other.phase, by rw [now, if_neg same], id⟩

theorem Sound.extends (h : s.Sound) (few : s.sends.length < 2 ^ 64) {e : Event}
    (step : s.step? e = some s') : s.Extends s' := by
  cases e with
  | draw operation arguments =>
    obtain ⟨payload, -, rfl⟩ := exists_of_draw step
    refine ⟨⟨rfl, rfl⟩, id, .inl, fun {n send} found ↦ ⟨send.phase, ?_, id⟩⟩
    rw [List.getElem?_append_left (List.getElem?_eq_some_iff.mp found).1, found]
  | enter n =>
    simp only [step?] at step
    split at step
    · rename_i found
      cases step
      refine extends_move found (by simp) _ ?_ ?_ ?_ <;> rw [Requester.enter] <;> split <;> simp
    · cases step
  | handOver n =>
    simp only [step?] at step
    split at step
    · rename_i found
      cases step
      refine extends_move found (by simp) _ ?_ ?_ ?_ <;> rw [Requester.handOver] <;> split <;>
        simp [settle, remove]
    · cases step
  | write =>
    cases step
    exact extends_after (retires_writeNext (h.distinct few))
  | receive parts =>
    cases step
    exact extends_after (retires_receive (h.distinct few) parts)
  | lose =>
    cases step
    exact extends_after (retires_close _)
  | stop =>
    cases step
    exact extends_after (retires_stop _)

end Lasting

/-- Sends ask for what events brought. -/
theorem arguments_of_step {s s' : Session} {e : Event} (P : List Data → Bytes → Prop)
    (step : s.step? e = some s') (old : ∀ send ∈ s.sends, P send.arguments send.payload)
    (new : ∀ operation arguments payload, e = .draw operation arguments →
      s.requester.codec.encode (.list arguments) = .ok payload → P arguments payload) :
    ∀ send ∈ s'.sends, P send.arguments send.payload := by
  have moved (n : Nat) (phase : Phase) :
      ∀ send ∈ (s.move n phase).sends, P send.arguments send.payload := by
    intro send among
    obtain ⟨m, found⟩ := List.mem_iff_getElem?.mp among
    rw [getElem?_move] at found
    obtain ⟨send', before, rfl⟩ := Option.map_eq_some_iff.mp found
    have asked := old send' (List.mem_of_getElem? before)
    split <;> exact asked
  cases e with
  | draw operation arguments =>
    obtain ⟨payload, written, rfl⟩ := exists_of_draw step
    intro send among
    rcases List.mem_append.mp among with before | now
    · exact old send before
    · rw [List.mem_singleton.mp now]
      exact new operation arguments payload rfl written
  | enter n | handOver n =>
    simp only [step?] at step
    split at step
    · cases step
      exact moved n _
    · cases step
  | write | receive parts | lose | stop =>
    cases step
    exact old

/-- No send is forgotten. -/
theorem length_le_of_step {s s' : Session} {e : Event} (step : s.step? e = some s') :
    s.sends.length ≤ s'.sends.length := by
  cases e with
  | draw operation arguments =>
    obtain ⟨payload, -, rfl⟩ := exists_of_draw step
    simp
  | enter n | handOver n =>
    simp only [step?] at step
    split at step
    · cases step
      simp [Session.after]
    · cases step
  | write | receive parts | lose | stop =>
    cases step
    exact le_refl _

theorem length_le_of_run {s s' : Session} {events : List Event} (run : s.run? events = some s') :
    s.sends.length ≤ s'.sends.length := by
  induction events generalizing s with
  | nil =>
    cases run
    exact le_refl _
  | cons e rest ih =>
    obtain ⟨next, step, run⟩ := Option.bind_eq_some_iff.mp run
    exact (length_le_of_step step).trans (ih run)

/-- Every session that a run reaches is sound, as long as ids do not repeat. -/
theorem sound_of_run {s s' : Session} {events : List Event} (run : s.run? events = some s')
    (few : s'.sends.length < 2 ^ 64) (start : s.Sound) : s'.Sound := by
  induction events generalizing s with
  | nil =>
    cases run
    exact start
  | cons e rest ih =>
    obtain ⟨next, step, later⟩ := Option.bind_eq_some_iff.mp run
    -- No send is forgotten, so what is few at the end was few before.
    exact ih later (start.step ((length_le_of_run run).trans_lt few) step)

/-- The number of times that the promise of a send was settled. -/
theorem length_results (s : Session) (n : Nat) :
    (s.results n).length = (s.settled.map Prod.fst).count n := by
  rw [results, List.length_map, List.count, List.countP_map, List.countP_eq_length_filter]
  congr 1

/-- A send that has entered waits under its id, or its promise was settled once. -/
theorem Sound.waits_or_settled {s : Session} {n : Nat} {send : Send} (h : s.Sound)
    (found : s.sends[n]? = some send) (inside : send.phase ≠ .drawn) :
    (s.results n = [] ∧ (send.id, n) ∈ s.requester.pending) ∨
      ∃ r, s.results n = [r] ∧ ∀ id, (id, n) ∉ s.requester.pending := by
  have once := h.once n
  rw [← length_results, show s.entered n = 1 by simp [entered, found, inside]] at once
  -- It is counted once among those who wait and those who were settled.
  by_cases waits : n ∈ s.requester.pending.map Prod.snd
  · obtain ⟨⟨id, m⟩, among, rfl⟩ := List.mem_map.mp waits
    obtain ⟨send', found', rfl⟩ := h.pending among
    obtain rfl := Option.some.inj (found.symm.trans found')
    have one := List.count_pos_iff.mpr waits
    exact .inl ⟨List.eq_nil_of_length_eq_zero (by omega), among⟩
  · rw [List.count_eq_zero.mpr waits, Nat.zero_add] at once
    obtain ⟨r, result⟩ := List.length_eq_one_iff.mp once
    exact .inr ⟨r, result, fun id among ↦ waits (List.mem_map_of_mem among)⟩

/-- Whatever the parties do in whatever order, and whatever frames arrive: ids do not repeat, a send that
has entered waits under its id or its promise was settled once, nobody waits when the connection is lost,
and so all promises are settled then.  A connection that is lost stays lost, and each event settles what is
`Due` and nothing else.  A send whose arguments cannot be written is settled at once and changes nothing. -/
theorem requests_conserved {codec : Codec} {limit : Nat} {events : List Event} {s : Session}
    (run : (start codec limit).run? events = some s) (few : s.sends.length < 2 ^ 64) :
    (∀ (m n : Nat) (a b : Send), s.sends[m]? = some a → s.sends[n]? = some b → a.id = b.id → m = n) ∧
    (∀ (n : Nat) (send : Send), s.sends[n]? = some send → send.phase ≠ .drawn →
      (s.results n = [] ∧ (send.id, n) ∈ s.requester.pending) ∨
        ∃ r, s.results n = [r] ∧ ∀ id, (id, n) ∉ s.requester.pending) ∧
    (s.requester.closed = true → s.requester.pending = [] ∧
      ∀ (n : Nat) (send : Send), s.sends[n]? = some send → send.phase ≠ .drawn →
        ∃ r, s.results n = [r]) ∧
    (∀ e s', s.step? e = some s' →
      (s.requester.closed = true → s'.requester.closed = true) ∧ s.Settles s' e) ∧
    ∀ n operation arguments e, s.requester.codec.encode (.list arguments) = .error e →
      s.requester.send n operation arguments = ([(n, .error e.message)], s.requester) := by
  have sound : s.Sound := sound_of_run run few (sound_start codec limit)
  refine ⟨fun m n a b hm hn same ↦ ?_, fun n send ↦ sound.waits_or_settled, fun gone ↦
    ⟨sound.closed gone, fun n send found inside ↦ ?_⟩, fun e s' step ↦
    ⟨(sound.extends few step).closed, sound.settles few step⟩, fun n operation arguments e unwritable ↦
    send_of_unwritable unwritable n operation⟩
  · rw [sound.ids hm, sound.ids hn] at same
    exact ofNat_inj ((List.getElem?_eq_some_iff.mp hm).1.trans few)
      ((List.getElem?_eq_some_iff.mp hn).1.trans few) same
  · rcases sound.waits_or_settled found inside with ⟨-, waits⟩ | ⟨r, result, -⟩
    · simp [sound.closed gone] at waits
    · exact ⟨r, result⟩

/-- Four sends: the first is answered, the request of the second is too large, the connection is lost while
the third is under way, and the fourth comes too late.  Frames arrive that nobody waits for. -/
def rush : List Event :=
  [.draw "f" [], .enter 0, .draw "far too long for a frame" [], .draw "f" [], .enter 1, .handOver 0,
    .handOver 1, .write, .write, .receive [idBytes 7, [], []], .receive [[1, 2], [], []], .enter 2,
    .receive [idBytes 0, Text.encode "3", []], .lose, .handOver 2, .draw "f" [], .enter 3, .write]

attribute [local instance] Wording.brief

/-- Each promise is settled, with what concerns it. -/
theorem requests_conserved_rush :
    ∃ s, (start Format.json.codec 40).run? rush = some s ∧ s.sends.length < 2 ^ 64 ∧ s.requester.pending = [] ∧
      [0, 1, 2, 3].map s.results =
        [[.ok (.int 3)], [.error "Protocol error: Message size 58 exceeds maximum 40"],
          [.error "connection closed"], [.error "connection closed"]] ∧
      (∀ s', s.step? (.receive [idBytes 2, [], []]) = some s' → s.Settles s' (.receive [idBytes 2, [], []])) := by
  obtain ⟨s, run, gone, length, results⟩ :
      ∃ s, (start Format.json.codec 40).run? rush = some s ∧ s.requester.closed = true ∧ s.sends.length = 4 ∧
        [0, 1, 2, 3].map s.results =
          [[.ok (.int 3)], [.error "Protocol error: Message size 58 exceeds maximum 40"],
            [.error "connection closed"], [.error "connection closed"]] := ⟨_, rfl, rfl, rfl, rfl⟩
  have few : s.sends.length < 2 ^ 64 := by
    rw [length]
    decide
  obtain ⟨-, -, nobody, due, -⟩ := requests_conserved run few
  exact ⟨s, run, few, (nobody gone).1, results, fun s' step ↦ (due _ s' step).2⟩

end Session

end Troupe.Net
