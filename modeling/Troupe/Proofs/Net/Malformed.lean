import Troupe.Proofs.Net.Canonical
import Troupe.Proofs.Net.Serving
import Troupe.Proofs.Text

/-!
# Malformed frames and the answers to them

A frame that holds no request is answered with an error, which returns the id of the frame and says what is
wrong.  Both come from the frame, and the rest is fixed, but for the words of whoever could not read the
arguments.  So the answer takes only so many bytes more than the frame (`RequestError.overhead`,
`Answer.size_error_le`).  It may still be larger than a frame can be, if the frame itself is nearly as large.

Of the answers that were sent, those are written that come before the first one that is too large
(`Connection.Queued`).  So a malformed frame that leaves the overhead takes nothing from the others, and one
that does not may end all writing.
-/

namespace Troupe.Net

/-! ## The sizes of answers -/

/-- How many bytes the answer to a malformed frame takes beyond those of the frame, at most.  Bytes that are
no document come with the words in which they were refused. -/
def RequestError.overhead : RequestError → Nat
  | .codec (.decode _ detail) => 12 + (Text.encode detail).length
  | _ => 49

namespace RequestError

theorem length_message_parts {n : Nat} (some : 0 < n) :
    (Text.encode (parts n).message).length ≤ 40 + n := by
  have digits := Text.length_encode_natural_le some
  have before : (Text.encode "expected 4 request parts but ").length = 29 := by decide +kernel
  have behind : (Text.encode " were given").length = 11 := by decide +kernel
  have text : (parts n).message = "expected 4 request parts but " ++ toString n ++ " were given" := rfl
  rw [text, Text.length_encode_append, Text.length_encode_append, before, behind]
  omega

theorem length_message_operation : (Text.encode operation.message).length = 33 := by decide +kernel

theorem length_message_format : (Text.encode format.message).length = 30 := by decide +kernel

theorem length_message_unknown (name : String) :
    (Text.encode (codec (.unknownFormat name)).message).length = 15 + (Text.encode name).length := by
  have before : (Text.encode "unknown format ").length = 15 := by decide +kernel
  have text : (codec (.unknownFormat name)).message = "unknown format " ++ name := rfl
  rw [text, Text.length_encode_append, before]

theorem length_message_undecodable (name detail : String) :
    (Text.encode (codec (.decode name detail)).message).length =
      (Text.encode name).length + 16 + (Text.encode detail).length := by
  have between : (Text.encode " decode failed: ").length = 16 := by decide +kernel
  have text : (codec (.decode name detail)).message = name ++ " decode failed: " ++ detail := rfl
  rw [text, Text.length_encode_append, Text.length_encode_append, between]

theorem length_message_notList (kind : Kind) : (Text.encode (notList kind).message).length ≤ 36 := by
  cases kind <;> decide +kernel

end RequestError

theorem Frame.size_four (a b c d : Bytes) :
    size [a, b, c, d] = 20 + a.length + b.length + c.length + d.length := by
  simp only [size, wordSize]
  omega

section Malformed

variable [Wording]

namespace Request

/-- Why the parts of a frame are no request. -/
inductive Refusal : Parts → RequestError → Prop where
  /-- there are too few or too many parts -/
  | parts {parts : Parts} (count : parts.length ≠ 4) : Refusal parts (.parts parts.length)
  /-- the name of the operation is no text -/
  | operation {id operation name payload : Bytes} (garbled : Text.decode? operation = none) :
      Refusal [id, operation, name, payload] .operation
  /-- the name of the format is no text -/
  | format {id operation name payload : Bytes} (garbled : Text.decode? name = none) :
      Refusal [id, operation, name, payload] .format
  /-- no format has the name -/
  | unknown {id operation name payload : Bytes} {text : String} (named : Text.decode? name = some text) :
      Refusal [id, operation, name, payload] (.codec (.unknownFormat text))
  /-- the arguments are no document of the format -/
  | undecodable {id operation name payload : Bytes} {f : Format}
      (named : Text.decode? name = some f.name) (garbled : f.read? payload = none) :
      Refusal [id, operation, name, payload] (.codec (f.malformed payload))
  /-- the arguments are no list -/
  | notList {id operation name payload : Bytes} {f : Format} {d : Data}
      (named : Text.decode? name = some f.name) (held : f.read? payload = some d) :
      Refusal [id, operation, name, payload] (.notList d.kind)

/-- There is a reason for each error. -/
theorem refusal_of_parse {parts : Parts} {e : RequestError} (fails : parse parts = .error e) :
    Refusal parts e := by
  rw [parse.eq_def] at fails
  split at fails
  · next id operation name payload =>
    split at fails
    · next garbled =>
      cases fails
      exact .operation garbled
    · next garbled _ =>
      cases fails
      exact .format garbled
    · next operation' text _ named =>
      cases required : Format.require text with
      | error e =>
        obtain rfl : .unknownFormat text = e := by
          rw [Format.require] at required
          split at required
          · cases required
          · cases required
            rfl
        simp only [required, Except.bind] at fails
        cases fails
        exact .unknown named
      | ok f =>
        obtain rfl := Format.require_eq_ok_iff.mp required
        cases decoded : f.decode payload with
        | error e =>
          obtain ⟨garbled, rfl⟩ := Format.decode_eq_error_iff.mp decoded
          simp only [required, Except.bind, decoded, Except.map] at fails
          cases fails
          exact .undecodable named garbled
        | ok d =>
          simp only [required, Except.bind, decoded, Except.map] at fails
          cases d with
          | list arguments => cases fails
          | null | bool | int | uint | float | string | map =>
            cases fails
            exact .notList named (Format.decode_eq_ok_iff.mp decoded)
  · next other =>
    cases fails
    refine .parts ?_
    intro four
    obtain ⟨id, operation, name, payload, rfl⟩ := List.length_eq_four.mp four
    exact other _ _ _ _ rfl

end Request

namespace Answer

omit [Wording] in
theorem size_error (id : Bytes) (message : String) :
    Frame.size (error id message) = 16 + id.length + (Text.encode message).length := by
  simp only [error, Frame.size, Frame.wordSize, List.length_nil]
  omega

/-- The answer to a malformed frame takes no more than the overhead beyond the bytes of the frame. -/
theorem size_error_le {id : Bytes} {rest : Parts} {e : RequestError}
    (fails : Request.parse (id :: rest) = .error e) :
    Frame.size (error id e.message) ≤ Frame.size (id :: rest) + e.overhead := by
  have refused := Request.refusal_of_parse fails
  rw [size_error]
  cases refused with
  | parts count =>
    have some : 0 < (id :: rest).length := Nat.zero_lt_succ rest.length
    have text := RequestError.length_message_parts some
    have each := Frame.size_eq rest
    rw [List.length_cons] at text
    simp only [RequestError.overhead, Frame.size_cons, Frame.wordSize, List.length_cons] at each ⊢
    omega
  | operation garbled =>
    simp only [RequestError.length_message_operation, RequestError.overhead, Frame.size_four]
    omega
  | format garbled =>
    simp only [RequestError.length_message_format, RequestError.overhead, Frame.size_four]
    omega
  | unknown named =>
    simp only [RequestError.length_message_unknown, Text.encode_of_decode? named, RequestError.overhead,
      Frame.size_four]
    omega
  | undecodable named garbled =>
    simp only [Format.malformed, RequestError.length_message_undecodable, Text.encode_of_decode? named,
      RequestError.overhead, Frame.size_four]
    omega
  | @notList _ _ _ _ _ d named held =>
    have text := RequestError.length_message_notList d.kind
    simp only [RequestError.overhead, Frame.size_four]
    omega

end Answer

/-! ## Frames that are read -/

omit [Wording] in
/-- The frames that a reader takes are within its limit. -/
theorem Reader.size_le_of_yields {r : Reader} {frames : List Parts} (yields : r.Yields frames) :
    ∀ parts ∈ frames, Frame.size parts ≤ r.limit := by
  induction yields with
  | finish none => exact nofun
  | @frame r r' parts rest frames first more ih =>
    obtain ⟨-, within, rfl⟩ := r.write_of_next first
    intro f among
    rcases List.mem_cons.mp among with rfl | later
    · exact within
    · exact ih f later

/-! ## What is written of the answers -/

omit [Wording] in
/-- Of answers one after the other, those are written that come before the first one that is too large, and
the writing ends at that one. -/
theorem Replier.writer_foldl_reply {κ : Type} {r : Replier κ} (going : r.broken = false)
    (replies : List Parts) :
    (replies.foldl reply r).writer = r.writer.writeEncoded
        ((replies.takeWhile fun p ↦ Frame.size p ≤ r.writer.limit).flatMap Frame.write) ∧
      ((replies.foldl reply r).broken = true ↔ ∃ p ∈ replies, r.writer.limit < Frame.size p) := by
  induction replies generalizing r with
  | nil =>
    constructor
    · simp [Writer.writeEncoded]
    · simp [going]
  | cons first rest ih =>
    rw [List.foldl_cons]
    by_cases fits : Frame.size first ≤ r.writer.limit
    · rw [reply_of_fits going fits, List.takeWhile_cons_of_pos (by simpa using fits), List.flatMap_cons]
      obtain ⟨writer, broken⟩ :=
        ih (r := { r with writer := r.writer.writeEncoded (Frame.write first) }) going
      constructor
      · rw [writer, Writer.writeEncoded, Writer.writeEncoded, Writer.writeEncoded, List.append_assoc]
      · rw [broken]
        have small : ¬ r.writer.limit < Frame.size first := by omega
        simp [Writer.writeEncoded, small]
    · have large : r.writer.limit < Frame.size first := by omega
      have refused : r.reply first = { r with broken := true } := by
        simp [reply, going, Writer.write, Frame.encode, large, Except.map]
      have deaf (replies : List Parts) :
          replies.foldl reply { r with broken := true } = { r with broken := true } := by
        induction replies with
        | nil => rfl
        | cons next replies ih => exact ih
      rw [refused, deaf, List.takeWhile_cons_of_neg (by simpa using large)]
      constructor
      · simp [Writer.writeEncoded]
      · simp [large]

namespace Connection

/-- What the replier did is to reply with the answers that were sent and are no longer in the channel, one
after the other. -/
def Queued (limit : Nat) (x : Connection) : Prop :=
  ∃ handled, x.sent = handled ++ x.channel ∧ x.replier =
    { handled.foldl Replier.reply (Replier.start limit : Replier Nat) with
      outstanding := x.replier.outstanding }

section Queued

variable {limit : Nat} {x x' : Connection}

omit [Wording] in
theorem queued_start (limit : Nat) (stream : Bytes) : (start limit stream).Queued limit := ⟨[], rfl, rfl⟩

omit [Wording] in
theorem Queued.send (h : x.Queued limit) (reply : Parts) : (x.send reply).Queued limit := by
  obtain ⟨handled, sent, replier⟩ := h
  refine ⟨handled, ?_, replier⟩
  rw [Connection.send, sent, List.append_assoc]

/-- An answer is sent, and it is another matter when it is written. -/
theorem Queued.step (h : x.Queued limit) {e : Event} (step : x.step? e = some x') : x'.Queued limit := by
  obtain ⟨handled, sent, replier⟩ := h
  cases e with
  | read =>
    rw [step?] at step
    split at step
    · cases step
    · split at step
      · next parts _ reader _ =>
        cases step
        rw [take]
        cases Incoming.ofParts parts with
        | ignored => exact ⟨handled, sent, replier⟩
        | malformed id e =>
          apply Queued.send
          exact ⟨handled, sent, replier⟩
        | request id r =>
          refine ⟨handled, sent, ?_⟩
          dsimp only [Replier.await]
          rw [replier]
      · cases step
        exact ⟨handled, sent, replier⟩
  | settle k o =>
    obtain ⟨t, -, rfl⟩ := Option.map_eq_some_iff.mp step
    apply Queued.send
    refine ⟨handled, sent, ?_⟩
    rw [replier]
  | write =>
    rw [step?] at step
    split at step
    · cases step
    · next reply channel next =>
      cases step
      refine ⟨handled ++ [reply], ?_, ?_⟩
      · rw [sent, next, List.append_assoc, List.singleton_append]
      · have one := foldl_reply (handled.foldl Replier.reply (.start limit)) x.replier.outstanding [reply]
        rw [← replier, List.foldl_cons, List.foldl_nil] at one
        rw [List.foldl_append, one]
  | drop =>
    rw [step?] at step
    split at step
    · cases step
      exact ⟨handled, sent, replier⟩
    · cases step

theorem Queued.run (h : x.Queued limit) {events : List Event} (run : x.run? events = some x') :
    x'.Queued limit := by
  induction events generalizing x with
  | nil =>
    cases run
    exact h
  | cons e rest ih =>
    obtain ⟨y, step, run⟩ := Option.bind_eq_some_iff.mp run
    exact ih (h.step step) run

omit [Wording] in
/-- So the answers are written that come before the first one that is too large, and the writing ends at
that one. -/
theorem Queued.written (h : x.Queued limit) :
    ∃ handled, x.sent = handled ++ x.channel ∧
      x.replier.writer =
        ⟨limit, (handled.takeWhile fun reply ↦ Frame.size reply ≤ limit).flatMap Frame.write⟩ ∧
      (x.replier.broken = true ↔ ∃ reply ∈ handled, limit < Frame.size reply) := by
  obtain ⟨handled, sent, replier⟩ := h
  obtain ⟨writer, broken⟩ :=
    Replier.writer_foldl_reply (r := (Replier.start limit : Replier Nat)) rfl handled
  rw [replier]
  exact ⟨handled, sent, writer, broken⟩

end Queued

/-! ## Which answers are sent -/

section Answers

variable {f : Nat → Option (Outcome Data)} {k : Nat} {frames : List Parts}

/-- A malformed frame is answered with its error. -/
theorem error_mem_answersTo {id : Bytes} {rest : Parts} {e : RequestError} (among : id :: rest ∈ frames)
    (fails : Request.parse (id :: rest) = .error e) :
    Answer.error id e.message ∈ answersTo f k frames := by
  obtain ⟨before, after, rfl⟩ := List.append_of_mem among
  have malformed : Incoming.ofParts (id :: rest) = .malformed id e := by
    rw [Incoming.ofParts, fails]
  rw [answersTo_append, answersTo, malformed]
  exact List.mem_append_right _ List.mem_cons_self

/-- What is sent is the error of a malformed frame, or the outcome of a request. -/
theorem exists_of_mem_answersTo {reply : Parts} (among : reply ∈ answersTo f k frames) :
    (∃ id rest e, id :: rest ∈ frames ∧ Request.parse (id :: rest) = .error e ∧
        reply = Answer.error id e.message) ∨
      ∃ n id r o, (frames.filterMap request?)[n]? = some (id, r) ∧ f (k + n) = some o ∧
        reply = Answer.write id r.format.codec (o.observe .null) := by
  induction frames generalizing k with
  | nil => cases among
  | cons parts frames ih =>
    have further (later : reply ∈ answersTo f k frames) (none : request? parts = none) :
        (∃ id rest e, id :: rest ∈ parts :: frames ∧ Request.parse (id :: rest) = .error e ∧
            reply = Answer.error id e.message) ∨
          ∃ n id r o, ((parts :: frames).filterMap request?)[n]? = some (id, r) ∧ f (k + n) = some o ∧
            reply = Answer.write id r.format.codec (o.observe .null) := by
      rw [List.filterMap_cons_none none]
      rcases ih later with ⟨id, rest, e, listed, error⟩ | outcome
      · exact .inl ⟨id, rest, e, List.mem_cons_of_mem _ listed, error⟩
      · exact .inr outcome
    rw [answersTo] at among
    rw [request?] at further
    cases parts with
    | nil => exact further among rfl
    | cons id rest =>
      rw [Incoming.ofParts] at among further
      cases parsed : Request.parse (id :: rest) with
      | error e =>
        rw [parsed] at among further
        rcases List.mem_cons.mp among with rfl | later
        · exact .inl ⟨id, rest, e, List.mem_cons_self, parsed, rfl⟩
        · exact further later rfl
      | ok r =>
        have asks : request? (id :: rest) = some (id, r) := by rw [request?, Incoming.ofParts, parsed]
        rw [parsed] at among
        rw [List.filterMap_cons_some asks]
        rcases List.mem_append.mp among with here | later
        · obtain ⟨o, comes, rfl⟩ := Option.map_eq_some_iff.mp (Option.mem_toList.mp here)
          exact .inr ⟨0, id, r, o, rfl, comes, rfl⟩
        · rcases ih later with ⟨id', rest', e, listed, error⟩ | ⟨n, id', r', o, asked, comes, answer⟩
          · exact .inl ⟨id', rest', e, List.mem_cons_of_mem _ listed, error⟩
          · refine .inr ⟨n + 1, id', r', o, asked, ?_, answer⟩
            rwa [Nat.add_comm n, ← Nat.add_assoc]

end Answers

omit [Wording] in
theorem mem_of_outcome? {outcomes : List (Nat × Outcome Data)} {k : Nat} {o : Outcome Data}
    (noted : outcome? outcomes k = some o) : (k, o) ∈ outcomes := by
  obtain ⟨⟨k', o'⟩, found, rfl⟩ := Option.map_eq_some_iff.mp noted
  obtain rfl : k' = k := by simpa using List.find?_some found
  exact List.mem_of_find?_eq_some found

/-- All answers fit, if the malformed frames leave their overhead and the answers to the requests fit. -/
theorem Sound.size_le_of_mem_sent {limit : Nat} {frames left : List Parts} {x : Connection}
    (sound : Sound limit frames left x)
    (room : ∀ id rest e, id :: rest ∈ x.taken → Request.parse (id :: rest) = .error e →
      Frame.size (id :: rest) + e.overhead ≤ limit)
    (fit : ∀ k id r o, x.messages[k]? = some (id, r) → (k, o) ∈ x.outcomes →
      Frame.size (Answer.write id r.format.codec (o.observe .null)) ≤ limit)
    {reply : Parts} (among : reply ∈ x.sent) : Frame.size reply ≤ limit := by
  rcases exists_of_mem_answersTo (sound.sent.mem_iff.mp among) with
    ⟨id, rest, e, listed, fails, rfl⟩ | ⟨k, id, r, o, asked, comes, rfl⟩
  · exact (Answer.size_error_le fails).trans (room id rest e listed fails)
  · rw [Nat.zero_add] at comes
    exact fit k id r o (sound.messages ▸ asked) (mem_of_outcome? comes)

/-- Every malformed frame that is taken is answered with an error, which takes at most its overhead more
than the frame.  Whatever the answers, those are written, in the order in which they were sent, that come
before the first one that does not fit a frame, and at that one the writing ends.  So it does not end if the
malformed frames leave their overhead, and the answers to the requests fit; then all answers that are no
longer in the channel are written. -/
theorem malformed_answered {limit : Nat} {stream : Bytes} {frames : List Parts} {events : List Event}
    {x : Connection} (yields : (⟨limit, stream, 0⟩ : Reader).Yields frames)
    (run : (start limit stream).run? events = some x) :
    (∀ id rest e, id :: rest ∈ x.taken → Request.parse (id :: rest) = .error e →
      Answer.error id e.message ∈ x.sent ∧ Frame.size (id :: rest) ≤ limit ∧
        ((∃ bytes, Frame.encode limit (Answer.error id e.message) = .ok bytes) ↔
          16 + id.length + (Text.encode e.message).length ≤ limit) ∧
        Frame.size (Answer.error id e.message) ≤ Frame.size (id :: rest) + e.overhead) ∧
    (∃ handled, x.sent = handled ++ x.channel ∧
      x.replier.writer =
        ⟨limit, (handled.takeWhile fun reply ↦ Frame.size reply ≤ limit).flatMap Frame.write⟩ ∧
      (x.replier.broken = true ↔ ∃ reply ∈ handled, limit < Frame.size reply)) ∧
    ((∀ id rest e, id :: rest ∈ x.taken → Request.parse (id :: rest) = .error e →
        Frame.size (id :: rest) + e.overhead ≤ limit) →
      (∀ k id r o, x.messages[k]? = some (id, r) → (k, o) ∈ x.outcomes →
        Frame.size (Answer.write id r.format.codec (o.observe .null)) ≤ limit) →
      x.replier.broken = false ∧ ∃ written, x.sent = written ++ x.channel ∧
        x.replier.writer.written = written.flatMap Frame.write) := by
  obtain ⟨left, sound⟩ := (sound_start yields).run run
  refine ⟨?_, ((queued_start limit stream).run run).written, ?_⟩
  · intro id rest e among fails
    have read : id :: rest ∈ frames := sound.frames ▸ List.mem_append_left _ among
    refine ⟨?_, Reader.size_le_of_yields yields _ read, ?_, Answer.size_error_le fails⟩
    · exact sound.sent.mem_iff.mpr (error_mem_answersTo among fails)
    · rw [← Answer.size_error]
      constructor
      · rintro ⟨bytes, encoded⟩
        exact (Frame.encode_eq_ok_iff.mp encoded).1
      · intro fits
        exact ⟨_, Frame.encode_eq_ok_iff.mpr ⟨fits, rfl⟩⟩
  · intro room fit
    obtain ⟨written, sent, writer, going⟩ := sound.written fun _ ↦ sound.size_le_of_mem_sent room fit
    exact ⟨going, written, sent, by rw [writer]⟩

/-- A frame that holds an id and nothing else, and a request. -/
def stray (id : Bytes) : List Parts :=
  [[id], [[2], Text.encode "add", Text.encode "json", Text.encode "[1]"]]

end Connection

end Malformed

/-- The words of a reader of JSON on the start of a map. -/
@[reducible] def Connection.unclosed : Wording := ⟨fun _ _ ↦ "EOF while parsing an object at line 1 column 1"⟩

section

attribute [local instance] Connection.unclosed

/-- Two frames without requests leave room for their answers, one of them with the words on arguments that
could not be read, and the request behind them is answered too. -/
theorem Connection.malformed_answered_short :
    ∃ x, (start 128 (([[7], Text.encode "add", Text.encode "json", Text.encode "\x7b"] :: stray [1]).flatMap
        Frame.write)).run? [.read, .write, .read, .write, .read, .settle 0 (.value (.int 1)), .write] = some x ∧
      x.replier.broken = false ∧ x.replier.writer.written =
        [[[7], [], Text.encode "json decode failed: EOF while parsing an object at line 1 column 1"],
          [[1], [], Text.encode "expected 4 request parts but 1 were given"],
          [[2], Text.encode "1", []]].flatMap Frame.write := by
  let frames : List Parts := [[7], Text.encode "add", Text.encode "json", Text.encode "\x7b"] :: stray [1]
  have yields : (⟨128, frames.flatMap Frame.write, 0⟩ : Reader).Yields frames := by
    have within : ∀ f ∈ frames, Frame.size f ≤ 128 := by decide +kernel
    simpa using Reader.yields_write (by decide) within (Frame.read_nil_ne 128) 0
  have runs : ((start 128 (frames.flatMap Frame.write)).run?
      [.read, .write, .read, .write, .read, .settle 0 (.value (.int 1)), .write]).map (fun x ↦
        (x.sent, x.taken, x.channel.isEmpty && x.messages.all fun m ↦ x.outcomes.all fun c ↦
          decide (Frame.size (Answer.write m.1 m.2.format.codec (c.2.observe .null)) ≤ 128))) =
      some ([[[7], [], Text.encode "json decode failed: EOF while parsing an object at line 1 column 1"],
        [[1], [], Text.encode "expected 4 request parts but 1 were given"],
        [[2], Text.encode "1", []]], frames, true) := by
    decide +kernel
  obtain ⟨x, run, same⟩ := Option.map_eq_some_iff.mp runs
  simp only [Prod.mk.injEq, Bool.and_eq_true, List.isEmpty_iff, List.all_eq_true, decide_eq_true_eq] at same
  obtain ⟨sent, taken, channel, fit⟩ := same
  have each : ∀ parts ∈ frames, ∀ e ∈ (match Request.parse parts with | .error e => [e] | .ok _ => []),
      Frame.size parts + e.overhead ≤ 128 := by
    decide +kernel
  have room : ∀ id rest e, id :: rest ∈ x.taken → Request.parse (id :: rest) = .error e →
      Frame.size (id :: rest) + e.overhead ≤ 128 := by
    intro id rest e among fails
    refine each _ (taken ▸ among) e ?_
    rw [fails]
    exact List.mem_singleton_self e
  obtain ⟨-, -, served⟩ := malformed_answered yields run
  obtain ⟨going, written, all, bytes⟩ := served room fun k id r o asked noted ↦
    fit (id, r) (List.mem_of_getElem? asked) (k, o) noted
  rw [channel, List.append_nil] at all
  exact ⟨x, run, going, by rw [bytes, ← all, sent]⟩

end

attribute [local instance] Wording.brief

/-- The frame has as many bytes as a frame can have, so no answer to it can be written, and then none to the
request behind it is. -/
theorem Connection.malformed_unanswered :
    (∃ rest, Frame.read 64 ((stray (.replicate 56 120)).flatMap Frame.write) =
        .frame [.replicate 56 120] rest) ∧
      Request.parse [.replicate 56 120] = .error (.parts 1) ∧
      (¬ ∃ bytes, Frame.encode 64 (Answer.error (.replicate 56 120) (RequestError.parts 1).message) =
        .ok bytes) ∧
      ∃ x, (start 64 ((stray (.replicate 56 120)).flatMap Frame.write)).run?
          [.read, .write, .read, .settle 0 (.value (.int 1)), .write] = some x ∧
        x.sent = [Answer.error (.replicate 56 120) (RequestError.parts 1).message,
          [[2], Text.encode "1", []]] ∧
        x.channel = [] ∧ x.replier.broken = true ∧ x.replier.writer.written = [] := by
  refine ⟨?_, rfl, ?_, ?_⟩
  · have within : Frame.size [.replicate 56 120] ≤ 64 := by decide
    exact ⟨_, Frame.read_write (by decide) within _⟩
  · rintro ⟨bytes, encoded⟩
    have fits := (Frame.encode_eq_ok_iff.mp encoded).1
    rw [Answer.size_error, List.length_replicate] at fits
    omega
  · have runs : ((start 64 ((stray (.replicate 56 120)).flatMap Frame.write)).run?
        [.read, .write, .read, .settle 0 (.value (.int 1)), .write]).map (fun x ↦
          (x.sent, x.channel, x.replier.broken, x.replier.writer.written)) =
        some ([Answer.error (.replicate 56 120) (RequestError.parts 1).message,
          [[2], Text.encode "1", []]], [], true, []) := by
      decide +kernel
    obtain ⟨x, run, same⟩ := Option.map_eq_some_iff.mp runs
    simp only [Prod.mk.injEq] at same
    exact ⟨x, run, same⟩

end Troupe.Net
