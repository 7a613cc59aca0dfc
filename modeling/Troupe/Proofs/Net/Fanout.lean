import Mathlib
import Troupe.Net.Publisher
import Troupe.Proofs.Text

/-!
# What a publisher queues for its subscribers

A publisher is shared by those who publish, by the tasks that bring subscribers in and by those that see
them leave.  A subscriber draws its id and then enters, and between the two others may act.  It departs when
nobody takes its frames any more, or when it is removed.  A broadcast is a publisher with all that was asked
of it and with the subscribers that are gone.

* Removing a subscriber leaves all others, though perhaps in another order (`unsubscribe_perm`).
* What was queued for a subscriber is known from the events of its stay (`Sound`).

The main statement is `queued_exactly`.
-/

namespace Troupe.Net

/-! ## Topics -/

/-- Some of the beginnings that are asked for begins the topic. -/
def Asks (beginnings : List String) (topic : String) : Prop :=
  ∃ beginning ∈ beginnings, beginning.toList <+: topic.toList

instance (beginnings : List String) (topic : String) : Decidable (Asks beginnings topic) :=
  inferInstanceAs (Decidable (∃ beginning ∈ beginnings, beginning.toList <+: topic.toList))

theorem asks_of_empty {beginnings : List String} (all : "" ∈ beginnings) (topic : String) :
    Asks beginnings topic :=
  ⟨"", all, List.nil_prefix⟩

theorem not_asks_nil (topic : String) : ¬ Asks [] topic := fun ⟨_, among, _⟩ ↦ List.not_mem_nil among

theorem Subscription.wants_iff {s : Subscription} {topic : String} :
    s.wants topic = true ↔ Asks s.topics topic := by
  simp [wants, Asks]

namespace Publisher

variable {p : Publisher}

/-! ## Subscribers come and go -/

/-- A frame asks for some beginnings exactly if its parts are their texts, one by one. -/
theorem topics?_eq_ok_iff {parts : Parts} {topics : List String} :
    topics? parts = .ok topics ↔ parts = topics.map Text.encode := by
  rw [← Text.mapM_decode?_eq_some_iff, topics?]
  cases parts.mapM Text.decode? with
  | none => simp
  | some texts => simp

/-- A subscriber draws its id. -/
def draw (p : Publisher) : Nat × Publisher := (p.nextId, { p with nextId := p.nextId + 1 })

/-- A subscriber that has its id enters. -/
def enter (p : Publisher) (id : Nat) (topics : List String) : Publisher :=
  { p with subscriptions := p.subscriptions ++ [⟨id, topics, [], true⟩] }

/-- A subscriber that nobody interrupts does one after the other. -/
theorem register_eq (p : Publisher) (topics : List String) :
    p.register topics = (p.draw.1, p.draw.2.enter p.draw.1 topics) := rfl

/-- The ids of the subscribers. -/
def ids (p : Publisher) : List Nat := p.subscriptions.map Subscription.id

/-- The last element takes the place of the one that is removed. -/
theorem swapRemove_perm {α : Type} {xs : List α} {i : Nat} (within : i < xs.length) :
    (swapRemove i xs).Perm (xs.eraseIdx i) := by
  rcases List.eq_nil_or_concat xs with rfl | ⟨front, last, rfl⟩
  · cases within
  · rw [List.concat_eq_append] at within ⊢
    rw [swapRemove, List.getLast?_concat]
    dsimp only
    rcases Nat.lt_or_ge i front.length with inner | outer
    · rw [List.set_append_left i last inner, List.dropLast_concat,
        List.eraseIdx_append_of_lt_length inner]
      exact (List.set_perm_cons_eraseIdx inner last).trans (List.perm_append_singleton last _).symm
    · obtain rfl : i = front.length := by
        rw [List.length_append, List.length_singleton] at within
        omega
      simp [List.eraseIdx_append_of_length_le (Nat.le_refl _)]

/-- Removing a subscriber leaves the others. -/
theorem unsubscribe_perm (distinct : p.ids.Nodup) (id : Nat) :
    (p.unsubscribe id).subscriptions.Perm (p.subscriptions.filter fun s ↦ s.id ≠ id) := by
  have erased : (p.unsubscribe id).subscriptions.Perm (p.subscriptions.eraseP (·.id == id)) := by
    rw [unsubscribe, List.eraseP_eq_eraseIdx]
    cases found : p.subscriptions.findIdx? (·.id == id) with
    | none => exact .refl _
    | some i => exact swapRemove_perm (List.findIdx?_eq_some_iff_getElem.mp found).1
  refine erased.trans (.of_eq ?_)
  rw [ids] at distinct
  generalize p.subscriptions = subscriptions at distinct
  induction subscriptions with
  | nil => rfl
  | cons s rest ih =>
    obtain ⟨alone, distinct⟩ := List.nodup_cons.mp (List.map_cons ▸ distinct)
    by_cases same : s.id = id
    · have others : rest.filter (fun t ↦ t.id ≠ id) = rest := List.filter_eq_self.mpr fun t among ↦ by
        have apart : t.id ≠ id := fun equal ↦
          alone (List.mem_map.mpr ⟨t, among, equal.trans same.symm⟩)
        simpa using apart
      rw [List.filter_cons_of_neg (by simpa using same), others]
      simp [same]
    · rw [List.eraseP_cons_of_neg (by simpa using same), List.filter_cons_of_pos (by simpa using same),
        ih distinct]

theorem offer_id {topic : String} {bytes : Bytes} {s s' : Subscription}
    (offered : offer topic bytes s = some s') : s'.id = s.id := by
  rw [offer] at offered
  split at offered
  · split at offered
    · cases offered
      rfl
    · cases offered
  · cases offered
    rfl

/-- Those that are left after a publication stand as they stood. -/
theorem filterMap_offer_sublist (topic : String) (bytes : Bytes) (ss : List Subscription) :
    ((ss.filterMap (offer topic bytes)).map Subscription.id).Sublist (ss.map Subscription.id) := by
  induction ss with
  | nil => exact .slnil
  | cons s rest ih =>
    cases offered : offer topic bytes s with
    | none =>
      rw [List.filterMap_cons_none offered]
      exact ih.cons _
    | some s' =>
      rw [List.filterMap_cons_some offered, List.map_cons, List.map_cons, offer_id offered]
      exact ih.cons_cons _

end Publisher

/-! ## Broadcasts -/

/-- A publisher and what it was asked. -/
structure Broadcast where
  /-- the publisher -/
  publisher : Publisher
  /-- what the subscribers asked for, in the order of their ids -/
  asked : List (List String)
  /-- the subscribers that are gone, as they were when they were removed -/
  gone : List Subscription
  /-- the answers to those who published, the oldest first -/
  answers : List (Except TransportError Nat)

namespace Broadcast

/-- What one of the parties does at an instant. -/
inductive Event where
  /-- a subscriber that asks for topics draws its id -/
  | draw (topics : List String)
  /-- a subscriber enters -/
  | enter (n : Nat)
  /-- nobody takes the frames of a subscriber any more -/
  | leave (n : Nat)
  /-- a subscriber is removed -/
  | unsubscribe (n : Nat)
  /-- a value is published -/
  | publish (topic : String) (value : Data)

/-- A publisher without subscribers. -/
def start (codec : Codec) (limit : Nat) : Broadcast := ⟨.start codec limit, [], [], []⟩

/-- All subscribers that ever entered. -/
def known (b : Broadcast) : List Subscription := b.publisher.subscriptions ++ b.gone

/-- What a publisher did is noted: the subscribers that it does not have any more are gone. -/
def after (b : Broadcast) (p : Publisher) : Broadcast :=
  { b with publisher := p, gone := b.gone ++ b.publisher.subscriptions.filter fun s ↦ s.id ∉ p.ids }

/-- What comes of one event, if it can happen. -/
def step? (b : Broadcast) : Event → Option Broadcast
  | .draw topics => some { b with publisher := b.publisher.draw.2, asked := b.asked ++ [topics] }
  | .enter n =>
    if n ∈ b.known.map Subscription.id then none
    else b.asked[n]?.map fun topics ↦ { b with publisher := b.publisher.enter n topics }
  | .leave n => some (b.after (b.publisher.leave n))
  | .unsubscribe n => some (b.after (b.publisher.unsubscribe n))
  | .publish topic value =>
    match b.publisher.publish topic value with
    | .error e => some { b with answers := b.answers ++ [.error e] }
    | .ok (count, p) => some { b.after p with answers := b.answers ++ [.ok count] }

/-- What comes of events one after the other. -/
def run? (b : Broadcast) : List Event → Option Broadcast
  | [] => some b
  | e :: rest => (b.step? e).bind fun b ↦ b.run? rest

/-- The frames that were queued for a subscriber. -/
def queued (b : Broadcast) (n : Nat) : List Bytes :=
  ((b.known.find? fun s ↦ s.id = n).map Subscription.frames).getD []

/-- Registering a subscriber is one of the ways in which it draws its id and enters. -/
theorem publisher_register {b : Broadcast} (drawn : b.publisher.nextId = b.asked.length)
    (new : b.asked.length ∉ b.known.map Subscription.id) (topics : List String) :
    (b.run? [.draw topics, .enter b.asked.length]).map publisher =
      some (b.publisher.register topics).2 := by
  let drawing : Broadcast := { b with publisher := b.publisher.draw.2, asked := b.asked ++ [topics] }
  have absent : b.asked.length ∉ drawing.known.map Subscription.id := new
  have asks : drawing.asked[b.asked.length]? = some topics := List.getElem?_concat_length
  have enters : drawing.step? (.enter b.asked.length) =
      some { drawing with publisher := drawing.publisher.enter b.asked.length topics } := by
    rw [step?, if_neg absent, asks, Option.map_some]
  rw [run?, step?, Option.bind_some, run?, enters, Option.bind_some, run?, Option.map_some, ← drawn]
  rfl

/-! ## Stays -/

/-- A subscriber enters. -/
def Event.enters (n : Nat) : Event → Bool
  | .enter m => m = n
  | _ => false

/-- A subscriber departs: nobody takes its frames any more, or it is removed. -/
def Event.departs (n : Nat) : Event → Bool
  | .leave m | .unsubscribe m => m = n
  | _ => false

/-- The frame that is published, if the topic is asked for, the value can be written and the frame is within
the limit. -/
def Event.frame? (codec : Codec) (limit : Nat) (topics : List String) : Event → Option Bytes
  | .publish topic value =>
    if Asks topics topic then
      (Publisher.frame codec limit topic value).toOption
    else none
  | _ => none

/-- The events from the entrance of a subscriber up to its departure. -/
def stay (n : Nat) : List Event → List Event
  | [] => []
  | e :: rest => if e.enters n then rest.takeWhile fun e ↦ !e.departs n else stay n rest

/-- A subscriber has entered. -/
def entered (n : Nat) (events : List Event) : Bool := events.any (Event.enters n)

/-- A subscriber has entered, and has not departed since. -/
def present (n : Nat) : List Event → Bool
  | [] => false
  | e :: rest => if e.enters n then rest.all fun e ↦ !e.departs n else present n rest

section Stays

variable {n : Nat} (events : List Event) (e : Event)

theorem entered_concat : entered n (events ++ [e]) = (entered n events || e.enters n) := by
  rw [entered, List.any_append, List.any_cons, List.any_nil, Bool.or_false, entered]

theorem entered_of_present (here : present n events = true) : entered n events = true := by
  induction events with
  | nil => cases here
  | cons first rest ih =>
    rw [entered, List.any_cons, Bool.or_eq_true]
    by_cases enters : first.enters n
    · exact .inl enters
    · rw [present, if_neg enters] at here
      exact .inr (ih here)

theorem stay_eq_nil (away : entered n events = false) : stay n events = [] := by
  induction events with
  | nil => rfl
  | cons first rest ih =>
    rw [entered, List.any_cons, Bool.or_eq_false_iff] at away
    rw [stay, if_neg (by simp [away.1]), ih away.2]

theorem takeWhile_concat {α : Type} (test : α → Bool) (xs : List α) (x : α) :
    (xs ++ [x]).takeWhile test = xs.takeWhile test ++ if xs.all test && test x then [x] else [] := by
  induction xs with
  | nil => cases accepted : test x <;> simp [accepted]
  | cons y ys ih => cases accepted : test y <;> simp [accepted, ih]

theorem stay_concat :
    stay n (events ++ [e]) = stay n events ++ if present n events && !e.departs n then [e] else [] := by
  induction events with
  | nil => by_cases enters : e.enters n <;> simp [stay, present, enters]
  | cons first rest ih =>
    by_cases enters : first.enters n
    · rw [List.cons_append, stay, if_pos enters, stay, if_pos enters, present, if_pos enters,
        takeWhile_concat]
    · rw [List.cons_append, stay, if_neg enters, stay, if_neg enters, present, if_neg enters, ih]

theorem present_concat (once : entered n events = true → e.enters n = false) :
    present n (events ++ [e]) = (e.enters n || present n events && !e.departs n) := by
  induction events with
  | nil => by_cases enters : e.enters n <;> simp [present, enters]
  | cons first rest ih =>
    by_cases enters : first.enters n
    · have other : e.enters n = false := once (by rw [entered, List.any_cons, enters, Bool.true_or])
      simp [present, enters, other]
    · rw [List.cons_append, present, if_neg enters, present, if_neg enters]
      refine ih fun before ↦ once ?_
      rw [entered, List.any_cons, Bool.or_eq_true]
      exact .inr before

end Stays

/-- The frames published in the stay of a subscriber for which it asked. -/
def deliveries (codec : Codec) (limit : Nat) (topics : List String) (n : Nat) (events : List Event) :
    List Bytes :=
  (stay n events).filterMap (Event.frame? codec limit topics)

/-- Who departs is not delivered anything by that. -/
theorem Event.frame?_of_departs {codec : Codec} {limit : Nat} {topics : List String} {n : Nat} {e : Event}
    (departs : e.departs n = true) : e.frame? codec limit topics = none := by
  cases e with
  | leave m | unsubscribe m => rfl
  | draw topics | enter m | publish topic value => cases departs

theorem deliveries_concat {codec : Codec} {limit : Nat} {topics : List String} {n : Nat}
    (events : List Event) (e : Event) :
    deliveries codec limit topics n (events ++ [e]) = deliveries codec limit topics n events ++
      if present n events then (e.frame? codec limit topics).toList else [] := by
  rw [deliveries, stay_concat, List.filterMap_append, deliveries]
  congr 1
  cases departs : e.departs n with
  | true => simp [Event.frame?_of_departs departs]
  | false => cases present n events <;> cases framed : e.frame? codec limit topics <;> simp [framed]

/-! ## What holds between any two events -/

/-- The subscribers are those that entered, each once, and each has what was published in its stay. -/
structure Sound (codec : Codec) (limit : Nat) (events : List Event) (b : Broadcast) : Prop where
  /-- the publisher has one codec and one limit -/
  settings : b.publisher.codec = codec ∧ b.publisher.limit = limit
  /-- ids are numbers of subscribers -/
  nextId : b.publisher.nextId = b.asked.length
  /-- no two subscribers have one id -/
  distinct : (b.known.map Subscription.id).Nodup
  /-- the subscribers are those that entered -/
  entered : ∀ n, n ∈ b.known.map Subscription.id ↔ entered n events = true
  /-- a subscriber has what it asked for -/
  asked : ∀ s ∈ b.known, b.asked[s.id]? = some s.topics
  /-- a subscriber has the frames of its stay -/
  frames : ∀ s ∈ b.known, s.frames = deliveries codec limit s.topics s.id events
  /-- frames of a subscriber are taken until it departs -/
  live : ∀ s ∈ b.publisher.subscriptions, s.live = present s.id events
  /-- who is gone has departed -/
  departed : ∀ s ∈ b.gone, present s.id events = false

theorem sound_start (codec : Codec) (limit : Nat) : Sound codec limit [] (start codec limit) where
  settings := ⟨rfl, rfl⟩
  nextId := rfl
  distinct := List.nodup_nil
  entered n := by simp [known, start, Publisher.start, Broadcast.entered]
  asked s among := absurd among List.not_mem_nil
  frames s among := absurd among List.not_mem_nil
  live s among := absurd among List.not_mem_nil
  departed s among := absurd among List.not_mem_nil

section Events

variable {codec : Codec} {limit : Nat} {events : List Event} {b : Broadcast}

theorem Sound.distinct_ids (h : Sound codec limit events b) : b.publisher.ids.Nodup := by
  have all := h.distinct
  rw [known, List.map_append] at all
  exact (List.nodup_append.mp all).1

/-- Nobody enters twice. -/
theorem Sound.away (h : Sound codec limit events b) {n : Nat} (new : n ∉ b.known.map Subscription.id) :
    Broadcast.entered n events = false :=
  Bool.eq_false_iff.mpr fun before ↦ new ((h.entered n).mpr before)

/-- An event that is no publication delivers nothing. -/
theorem deliveries_of_silent {e : Event} {topics : List String} (n : Nat)
    (silent : e.frame? codec limit topics = none) :
    deliveries codec limit topics n (events ++ [e]) = deliveries codec limit topics n events := by
  rw [deliveries_concat, silent]
  split <;> simp

theorem Sound.draw (h : Sound codec limit events b) (topics : List String) :
    Sound codec limit (events ++ [.draw topics])
      { b with publisher := b.publisher.draw.2, asked := b.asked ++ [topics] } where
  settings := h.settings
  nextId := by
    rw [List.length_append, List.length_singleton, ← h.nextId]
    rfl
  distinct := h.distinct
  entered n := by
    have quiet : (Event.draw topics).enters n = false := rfl
    rw [entered_concat, quiet, Bool.or_false]
    exact h.entered n
  asked s among := by
    have before := h.asked s among
    rw [List.getElem?_append_left (List.getElem?_eq_some_iff.mp before).1, before]
  frames s among := (h.frames s among).trans (deliveries_of_silent s.id rfl).symm
  live s among := by
    rw [present_concat events (.draw topics) fun _ ↦ rfl]
    simpa [Event.enters, Event.departs] using h.live s among
  departed s among := by
    rw [present_concat events (.draw topics) fun _ ↦ rfl]
    simpa [Event.enters, Event.departs] using h.departed s among

theorem Sound.enter (h : Sound codec limit events b) {n : Nat} (new : n ∉ b.known.map Subscription.id)
    {topics : List String} (asks : b.asked[n]? = some topics) :
    Sound codec limit (events ++ [.enter n]) { b with publisher := b.publisher.enter n topics } := by
  have away := h.away new
  have perm : ({ b with publisher := b.publisher.enter n topics } : Broadcast).known.Perm
      (⟨n, topics, [], true⟩ :: b.known) := by
    rw [known, Publisher.enter, List.append_assoc, List.singleton_append]
    exact List.perm_middle
  have others : ∀ s ∈ b.known, s.id ≠ n := fun s among same ↦
    new (List.mem_map.mpr ⟨s, among, same⟩)
  have stays : ∀ s ∈ b.known, present s.id (events ++ [.enter n]) = present s.id events := fun s among ↦ by
    rw [present_concat events (.enter n) fun _ ↦ by simpa [Event.enters] using (others s among).symm]
    simp [Event.enters, Event.departs, (others s among).symm]
  have comes : present n (events ++ [.enter n]) = true := by
    rw [present_concat events (.enter n) fun before ↦ by rw [away] at before; cases before]
    simp [Event.enters]
  exact {
    settings := h.settings
    nextId := h.nextId
    distinct := by
      rw [(perm.map _).nodup_iff, List.map_cons, List.nodup_cons]
      exact ⟨new, h.distinct⟩
    entered := fun m ↦ by
      rw [(perm.map _).mem_iff, List.map_cons, List.mem_cons, h.entered, entered_concat, Event.enters,
        Bool.or_eq_true, decide_eq_true_iff]
      exact ⟨fun either ↦ either.symm.imp_right Eq.symm, fun either ↦ either.symm.imp_left Eq.symm⟩
    asked := fun s among ↦ by
      rcases List.mem_cons.mp (perm.mem_iff.mp among) with rfl | old
      · exact asks
      · exact h.asked s old
    frames := fun s among ↦ by
      rcases List.mem_cons.mp (perm.mem_iff.mp among) with rfl | old
      · rw [deliveries_of_silent n rfl, deliveries, stay_eq_nil events away]
        rfl
      · exact (h.frames s old).trans (deliveries_of_silent s.id rfl).symm
    live := fun s among ↦ by
      rcases List.mem_append.mp among with old | last
      · rw [stays s (List.mem_append_left _ old)]
        exact h.live s old
      · rw [List.mem_singleton.mp last, comes]
    departed := fun s among ↦ by
      rw [stays s (List.mem_append_right _ among)]
      exact h.departed s among }

/-- Who is not among those that stay is gone. -/
theorem known_after_perm {p : Publisher} (before : b.publisher.ids.Nodup) (distinct : p.ids.Nodup)
    (fewer : ∀ n ∈ p.ids, n ∈ b.publisher.ids) :
    ((b.after p).known.map Subscription.id).Perm (b.known.map Subscription.id) := by
  have parts : (b.publisher.ids.filter (· ∈ p.ids)).Perm p.ids :=
    (List.perm_ext_iff_of_nodup (before.filter _) distinct).mpr fun n ↦ by
      simpa using fewer n
  calc (b.after p).known.map Subscription.id
    _ = p.ids ++ (b.gone.map Subscription.id ++ b.publisher.ids.filter (· ∉ p.ids)) := by
      simp [known, Broadcast.after, Publisher.ids, List.filter_map, Function.comp_def]
    _ |>.Perm (b.publisher.ids.filter (· ∈ p.ids) ++
        (b.publisher.ids.filter (· ∉ p.ids) ++ b.gone.map Subscription.id)) :=
      parts.symm.append List.perm_append_comm
    _ |>.Perm (b.publisher.ids ++ b.gone.map Subscription.id) := by
      rw [← List.append_assoc]
      refine List.Perm.append_right _ ?_
      simpa using List.filter_append_perm (fun n ↦ decide (n ∈ p.ids)) b.publisher.ids
    _ = b.known.map Subscription.id := (List.map_append ..).symm

/-- The publisher may be left by some of its subscribers.  Those that stay and those that are gone are told
what the event delivers to them. -/
theorem Sound.after (h : Sound codec limit events b) {e : Event} {p : Publisher}
    (quiet : ∀ n, e.enters n = false)
    (settings : p.codec = codec ∧ p.limit = limit ∧ p.nextId = b.publisher.nextId)
    (distinct : p.ids.Nodup)
    (stays : ∀ s' ∈ p.subscriptions, ∃ s ∈ b.publisher.subscriptions, s'.id = s.id ∧ s'.topics = s.topics ∧
      s'.frames = s.frames ++ (if s.live then (e.frame? codec limit s.topics).toList else []) ∧
      s'.live = (s.live && !e.departs s.id))
    (goes : ∀ s ∈ b.publisher.subscriptions, s.id ∉ p.ids →
      (s.live && !e.departs s.id) = false ∧ (s.live = true → e.frame? codec limit s.topics = none)) :
    Sound codec limit (events ++ [e]) (b.after p) := by
  have fewer : ∀ n ∈ p.ids, n ∈ b.publisher.ids := fun n among ↦ by
    obtain ⟨s', stayed, rfl⟩ := List.mem_map.mp among
    obtain ⟨s, before, id, -⟩ := stays s' stayed
    exact id ▸ List.mem_map_of_mem before
  have present (n : Nat) : present n (events ++ [e]) = (present n events && !e.departs n) := by
    rw [present_concat events e fun _ ↦ quiet n, quiet, Bool.false_or]
  have perm := known_after_perm h.distinct_ids distinct fewer
  have split : ∀ s ∈ (b.after p).known, s ∈ p.subscriptions ∨
      s ∈ b.gone ∨ s ∈ b.publisher.subscriptions ∧ s.id ∉ p.ids := fun s among ↦ by
    simpa [known, Broadcast.after] using among
  have silent (s : Subscription) (apart : s.live = Broadcast.present s.id events)
      (none : s.live = true → e.frame? codec limit s.topics = none) :
      deliveries codec limit s.topics s.id (events ++ [e]) = deliveries codec limit s.topics s.id events := by
    rw [deliveries_concat, ← apart]
    cases live : s.live with
    | true => simp [none live]
    | false => simp
  exact {
    settings := ⟨settings.1, settings.2.1⟩
    nextId := settings.2.2.trans h.nextId
    distinct := perm.nodup_iff.mpr h.distinct
    entered := fun n ↦ by
      rw [perm.mem_iff, h.entered, entered_concat, quiet, Bool.or_false]
    asked := fun s among ↦ by
      rcases split s among with stayed | before | ⟨old, -⟩
      · obtain ⟨s', old, id, topics, -⟩ := stays s stayed
        rw [id, topics]
        exact h.asked s' (List.mem_append_left _ old)
      · exact h.asked s (List.mem_append_right _ before)
      · exact h.asked s (List.mem_append_left _ old)
    frames := fun s among ↦ by
      rcases split s among with stayed | before | ⟨old, left⟩
      · obtain ⟨s', old, id, topics, frames, -⟩ := stays s stayed
        rw [frames, id, topics, deliveries_concat, ← h.frames s' (List.mem_append_left _ old),
          ← h.live s' old]
      · rw [deliveries_concat, h.departed s before, ← h.frames s (List.mem_append_right _ before)]
        simp
      · rw [silent s (h.live s old) (goes s old left).2]
        exact h.frames s (List.mem_append_left _ old)
    live := fun s' stayed ↦ by
      obtain ⟨s, old, id, -, -, live⟩ := stays s' stayed
      rw [live, id, present, h.live s old]
    departed := fun s among ↦ by
      rcases List.mem_append.mp among with before | left
      · rw [present, h.departed s before, Bool.false_and]
      · obtain ⟨old, left⟩ := List.mem_filter.mp left
        rw [present, ← h.live s old]
        exact (goes s old (by simpa using left)).1 }

theorem Sound.leave (h : Sound codec limit events b) (n : Nat) :
    Sound codec limit (events ++ [.leave n]) (b.after (b.publisher.leave n)) := by
  have ids : (b.publisher.leave n).ids = b.publisher.ids := by
    rw [Publisher.ids, Publisher.leave, List.map_map, Publisher.ids]
    refine List.map_congr_left fun s _ ↦ ?_
    rw [Function.comp_apply]
    split <;> rfl
  refine h.after (fun _ ↦ rfl) ⟨h.settings.1, h.settings.2, rfl⟩ (ids ▸ h.distinct_ids) ?_ fun s among left ↦ ?_
  · intro s' among
    obtain ⟨s, old, rfl⟩ := List.mem_map.mp among
    refine ⟨s, old, ?_⟩
    by_cases same : s.id = n
    · simp [same, Event.frame?, Event.departs]
    · simp [same, Event.frame?, Event.departs, Ne.symm same]
  · rw [ids] at left
    exact absurd (List.mem_map_of_mem among) left

theorem Sound.unsubscribe (h : Sound codec limit events b) (n : Nat) :
    Sound codec limit (events ++ [.unsubscribe n]) (b.after (b.publisher.unsubscribe n)) := by
  have perm := Publisher.unsubscribe_perm h.distinct_ids n
  have settings : (b.publisher.unsubscribe n).codec = b.publisher.codec ∧
      (b.publisher.unsubscribe n).limit = b.publisher.limit ∧
      (b.publisher.unsubscribe n).nextId = b.publisher.nextId := by
    rw [Publisher.unsubscribe]
    split <;> exact ⟨rfl, rfl, rfl⟩
  have distinct : (b.publisher.unsubscribe n).ids.Nodup :=
    (perm.map _).nodup_iff.mpr (h.distinct_ids.sublist (List.filter_sublist.map _))
  refine h.after (fun _ ↦ rfl) ⟨settings.1.trans h.settings.1, settings.2.1.trans h.settings.2, settings.2.2⟩
    distinct (fun s stayed ↦ ?_) fun s among left ↦ ⟨?_, fun _ ↦ rfl⟩
  · obtain ⟨old, other⟩ := List.mem_filter.mp (perm.mem_iff.mp stayed)
    have apart : n ≠ s.id := fun same ↦ by simp [same] at other
    exact ⟨s, old, by simp [Event.frame?, Event.departs, apart]⟩
  · have same : s.id = n := by
      by_contra apart
      have stays := perm.mem_iff.mpr (List.mem_filter.mpr ⟨among, by simpa using apart⟩)
      exact left (List.mem_map_of_mem stays)
    simp [Event.departs, same]

/-- Publishing a frame within the limit queues it for all subscribers that are there and asked for the
topic. -/
theorem Sound.publish (h : Sound codec limit events b) {topic : String} {value : Data} {bytes : Bytes}
    (framed : Publisher.frame codec limit topic value = .ok bytes) :
    Sound codec limit (events ++ [.publish topic value]) (b.after { b.publisher with
      subscriptions := b.publisher.subscriptions.filterMap (Publisher.offer topic bytes) }) := by
  have delivers (s : Subscription) : (Event.publish topic value).frame? codec limit s.topics =
      if s.wants topic then some bytes else none := by
    by_cases asks : Asks s.topics topic
    · rw [Event.frame?, if_pos asks, framed, if_pos (Subscription.wants_iff.mpr asks)]
      rfl
    · rw [Event.frame?, if_neg asks, if_neg fun wants ↦ asks (Subscription.wants_iff.mp wants)]
  have quiet (n : Nat) : (Event.publish topic value).departs n = false := rfl
  have sublist := Publisher.filterMap_offer_sublist topic bytes b.publisher.subscriptions
  refine h.after (fun _ ↦ rfl) ⟨h.settings.1, h.settings.2, rfl⟩ (h.distinct_ids.sublist sublist)
    (fun s' stayed ↦ ?_) fun s among left ↦ ?_
  · obtain ⟨s, old, offered⟩ := List.mem_filterMap.mp stayed
    refine ⟨s, old, Publisher.offer_id offered, ?_⟩
    rw [delivers, quiet]
    rw [Publisher.offer] at offered
    split at offered
    · next wants =>
      split at offered
      · next live =>
        cases offered
        simp [wants, live]
      · cases offered
    · next other =>
      cases offered
      simp [other]
  · have refused : Publisher.offer topic bytes s = none := by
      cases offered : Publisher.offer topic bytes s with
      | none => rfl
      | some s' =>
        have stays := List.mem_map_of_mem (f := Subscription.id) (List.mem_filterMap.mpr ⟨s, among, offered⟩)
        rw [Publisher.offer_id offered] at stays
        exact absurd stays left
    rw [Publisher.offer] at refused
    split at refused
    · split at refused
      · cases refused
      · next dead => simp [dead]
    · cases refused

/-- The publisher queues the frame of a publication, if there is one. -/
theorem publish_eq (h : Sound codec limit events b) (topic : String) (value : Data) :
    b.step? (.publish topic value) =
      match Publisher.frame codec limit topic value with
      | .error e => some { b with answers := b.answers ++ [.error e] }
      | .ok bytes => some { b.after { b.publisher with
            subscriptions := b.publisher.subscriptions.filterMap (Publisher.offer topic bytes) } with
          answers := b.answers ++ [.ok (b.publisher.subscriptions.countP fun s ↦ s.wants topic && s.live)] } := by
  have framed : Publisher.frame b.publisher.codec b.publisher.limit topic value =
      Publisher.frame codec limit topic value := by
    rw [h.settings.1, h.settings.2]
  rw [step?, Publisher.publish, framed]
  cases Publisher.frame codec limit topic value <;> rfl

/-- Whatever happens, the subscribers are those that entered. -/
theorem Sound.step (h : Sound codec limit events b) {e : Event} {b' : Broadcast}
    (step : b.step? e = some b') : Sound codec limit (events ++ [e]) b' := by
  cases e with
  | draw topics =>
    cases step
    exact h.draw topics
  | enter n =>
    rw [step?] at step
    split at step
    · cases step
    · next new =>
      obtain ⟨topics, asks, rfl⟩ := Option.map_eq_some_iff.mp step
      exact h.enter new asks
  | leave n =>
    cases step
    exact h.leave n
  | unsubscribe n =>
    cases step
    exact h.unsubscribe n
  | publish topic value =>
    rw [publish_eq h] at step
    split at step
    · next e refused =>
      cases step
      -- Nothing is published, so the subscribers have what they had.
      have silent (topics : List String) : (Event.publish topic value).frame? codec limit topics = none := by
        rw [Event.frame?, refused]
        split <;> rfl
      have same (n : Nat) : present n (events ++ [.publish topic value]) = present n events := by
        rw [present_concat events (.publish topic value) fun _ ↦ rfl]
        simp [Event.enters, Event.departs]
      exact { h with
        entered := fun n ↦ by
          have quiet : (Event.publish topic value).enters n = false := rfl
          rw [entered_concat, quiet, Bool.or_false]
          exact h.entered n
        frames := fun s among ↦ (h.frames s among).trans (deliveries_of_silent s.id (silent s.topics)).symm
        live := fun s among ↦ (h.live s among).trans (same s.id).symm
        departed := fun s among ↦ (same s.id).trans (h.departed s among) }
    · next bytes framed =>
      cases step
      exact { h.publish framed with }

/-- Whatever happens, the subscribers are those that entered. -/
theorem Sound.run (h : Sound codec limit events b) {more : List Event} {b' : Broadcast}
    (run : b.run? more = some b') : Sound codec limit (events ++ more) b' := by
  induction more generalizing events b with
  | nil =>
    cases run
    rwa [List.append_nil]
  | cons e rest ih =>
    obtain ⟨next, step, run⟩ := Option.bind_eq_some_iff.mp run
    rw [List.append_cons]
    exact ih (h.step step) run

/-! ## What is queued -/

/-- A subscriber has what was published in its stay, if anything. -/
theorem Sound.queued_eq (h : Sound codec limit events b) {n : Nat} {topics : List String}
    (asks : b.asked[n]? = some topics) : b.queued n = deliveries codec limit topics n events := by
  rw [queued]
  cases found : b.known.find? fun s ↦ s.id = n with
  | none =>
    have away : Broadcast.entered n events = false := h.away fun among ↦ by
      obtain ⟨s, known, rfl⟩ := List.mem_map.mp among
      simpa using List.find?_eq_none.mp found s known
    rw [deliveries, stay_eq_nil events away]
    rfl
  | some s =>
    obtain rfl : s.id = n := by simpa using List.find?_some found
    have known := List.mem_of_find?_eq_some found
    obtain rfl : s.topics = topics := Option.some.inj ((h.asked s known).symm.trans asks)
    exact h.frames s known

/-- Who is there and asked for a topic. -/
def hearers (events : List Event) (b : Broadcast) (topic : String) : List Nat :=
  (List.range b.asked.length).filter fun n ↦ present n events ∧ Asks (b.asked.getD n []) topic

theorem mem_hearers {n : Nat} {topics : List String} (asks : b.asked[n]? = some topics) (topic : String) :
    n ∈ hearers events b topic ↔ present n events = true ∧ Asks topics topic := by
  have drawn := (List.getElem?_eq_some_iff.mp asks).1
  have found : b.asked.getD n [] = topics := by
    rw [List.getD_eq_getElem?_getD, asks, Option.getD_some]
  rw [hearers, List.mem_filter, found, List.mem_range]
  simp [drawn]

/-- A publication is queued for those who are there and asked for its topic. -/
theorem Sound.countP_eq (h : Sound codec limit events b) (topic : String) :
    (b.publisher.subscriptions.countP fun s ↦ s.wants topic && s.live) =
      (hearers events b topic).length := by
  have perm : ((b.publisher.subscriptions.filter fun s ↦ s.wants topic && s.live).map Subscription.id).Perm
      (hearers events b topic) := by
    refine (List.perm_ext_iff_of_nodup (h.distinct_ids.sublist (List.filter_sublist.map _))
      (List.nodup_range.filter _)).mpr fun n ↦ ?_
    constructor
    · intro among
      obtain ⟨s, hears, rfl⟩ := List.mem_map.mp among
      obtain ⟨here, hears⟩ := List.mem_filter.mp hears
      obtain ⟨wants, live⟩ := Bool.and_eq_true_iff.mp hears
      rw [h.live s here] at live
      exact (mem_hearers (h.asked s (List.mem_append_left _ here)) topic).mpr
        ⟨live, Subscription.wants_iff.mp wants⟩
    · intro among
      have drawn : n < b.asked.length := List.mem_range.mp (List.mem_of_mem_filter among)
      obtain ⟨here, asks⟩ := (mem_hearers (List.getElem?_eq_getElem drawn) topic).mp among
      obtain ⟨s, known, rfl⟩ := List.mem_map.mp ((h.entered n).mpr (entered_of_present events here))
      have topics : s.topics = b.asked[s.id] :=
        Option.some.inj ((h.asked s known).symm.trans (List.getElem?_eq_getElem drawn))
      rcases List.mem_append.mp known with stays | gone
      · refine List.mem_map_of_mem (List.mem_filter.mpr ⟨stays, ?_⟩)
        rw [h.live s stays, here, Bool.and_true, Subscription.wants_iff, topics]
        exact asks
      · rw [h.departed s gone] at here
        cases here
  rw [List.countP_eq_length_filter, ← perm.length_eq, List.length_map]

end Events

/-- Whatever the codec, and whatever the order in which subscribers come and go and values are published, for
each subscriber exactly the frames are queued that were published between its entrance and its departure on a
topic of which it asked for some beginning, each once and in the order of their publication.  A publication is
answered with the number of the subscribers that are there and asked for its topic, and these are the ones for
which its frame is queued.  One whose value cannot be written, and one over the limit, is answered with the
error and changes nothing else.  Removing a subscriber leaves all others as they are. -/
theorem queued_exactly {codec : Codec} {limit : Nat} {events : List Event} {b : Broadcast}
    (run : (start codec limit).run? events = some b) :
    (∀ n topics, b.asked[n]? = some topics →
      b.queued n = (stay n events).filterMap (Event.frame? codec limit topics)) ∧
    (∀ topics topic, ("" ∈ topics → Asks topics topic) ∧ ¬ Asks [] topic) ∧
    (∀ topic value e, codec.encode value = .error e → b.step? (.publish topic value) =
      some { b with answers := b.answers ++ [.error (.ofCodec e)] }) ∧
    (∀ topic value payload, codec.encode value = .ok payload →
      let parts := [Text.encode topic, Text.encode codec.name, payload]
      (limit < Frame.size parts → b.step? (.publish topic value) =
        some { b with answers := b.answers ++ [.error (Frame.oversized (Frame.size parts) limit)] }) ∧
      (Frame.size parts ≤ limit → ∃ b', b.step? (.publish topic value) = some b' ∧
        b'.answers = b.answers ++ [.ok (hearers events b topic).length] ∧
        ∀ n, n < b.asked.length → b'.queued n = b.queued n ++
          if n ∈ hearers events b topic then [Frame.write parts] else [])) ∧
    ∀ n, (b.publisher.unsubscribe n).subscriptions.Perm
      (b.publisher.subscriptions.filter fun s ↦ s.id ≠ n) := by
  have sound : Sound codec limit events b := (sound_start codec limit).run run
  refine ⟨fun n topics ↦ sound.queued_eq,
    fun topics topic ↦ ⟨fun all ↦ asks_of_empty all topic, not_asks_nil topic⟩,
    fun topic value e unwritable ↦ ?_, fun topic value payload written ↦ ⟨fun large ↦ ?_, fun fits ↦ ?_⟩,
    Publisher.unsubscribe_perm sound.distinct_ids⟩
  · rw [publish_eq sound, Publisher.frame, unwritable]
  · rw [publish_eq sound, Publisher.frame, written]
    dsimp only
    rw [Frame.encode, if_pos large]
  · have framed : Publisher.frame codec limit topic value =
        .ok (Frame.write [Text.encode topic, Text.encode codec.name, payload]) := by
      rw [Publisher.frame, written]
      exact Frame.encode_eq_ok_iff.mpr ⟨fits, rfl⟩
    have step := publish_eq sound topic value
    rw [framed] at step
    refine ⟨_, step, ?_, fun n drawn ↦ ?_⟩
    · rw [sound.countP_eq]
    · have asks := List.getElem?_eq_getElem drawn
      rw [(sound.step step).queued_eq asks, sound.queued_eq asks, deliveries_concat]
      simp only [mem_hearers asks, Event.frame?, framed]
      by_cases here : present n events <;> by_cases asks : Asks b.asked[n] topic <;>
        simp [here, asks, Except.toOption]

/-- A codec that writes numbers and nothing else. -/
def numbers : Codec where
  name := "numbers"
  encode
    | .int i => .ok (Text.encode (toString i.toInt))
    | _ => .error (.encode "numbers" "not a number")
  decode _ := .error (.decode "numbers" "write-only")

/-- Of two subscribers one is removed and one is left alone, a frame is over the limit, and a value cannot be
written. -/
def departures : List Event :=
  [.draw ["prices.", "prices.eur"], .draw [""], .enter 1, .publish "alerts" (.int 1), .enter 0,
    .publish "prices.eur" (.int 2), .unsubscribe 1, .publish "prices.usd" (.int 1000000000000000),
    .publish "prices.eur" .null, .leave 0, .publish "prices.eur" (.int 3)]

theorem queued_exactly_departures :
    ∃ b, (start numbers 40).run? departures = some b ∧
      b.queued 0 = [Frame.write [Text.encode "prices.eur", Text.encode "numbers", Text.encode "2"]] ∧
      b.queued 1 = [Frame.write [Text.encode "alerts", Text.encode "numbers", Text.encode "1"],
        Frame.write [Text.encode "prices.eur", Text.encode "numbers", Text.encode "2"]] ∧
      b.answers = [.ok 1, .ok 2, .error (Frame.oversized 49 40),
        .error (.ofCodec (.encode "numbers" "not a number")), .ok 0] := by
  have runs : ((start numbers 40).run? departures).map (fun b ↦ (b.asked, b.answers)) =
      some ([["prices.", "prices.eur"], [""]], [.ok 1, .ok 2, .error (Frame.oversized 49 40),
        .error (.ofCodec (.encode "numbers" "not a number")), .ok 0]) := by
    cbv
  obtain ⟨b, run, same⟩ := Option.map_eq_some_iff.mp runs
  obtain ⟨asked, answers⟩ := Prod.mk.inj same
  have queued := (queued_exactly run).1
  refine ⟨b, run, (queued 0 ["prices.", "prices.eur"] ?_).trans ?_, (queued 1 [""] ?_).trans ?_, answers⟩
  · rw [asked]
    rfl
  · cbv
  · rw [asked]
    rfl
  · cbv

end Broadcast

end Troupe.Net
