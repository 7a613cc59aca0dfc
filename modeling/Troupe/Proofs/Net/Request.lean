import Troupe.Net.Request
import Troupe.Proofs.Codec

/-!
# Requests and answers are read as they were written

A request is read back if its format reads its arguments back, and an answer if the format reads its value
back.  An error is always read back, also one without text: a value is never written as zero bytes, so
nothing else looks like an error.
-/

namespace Troupe

namespace Net

variable [Wording]

/-- A request is read as it was written. -/
theorem Request.parse_write {r : Request} (args : r.format.RoundTrips (.list r.arguments)) (id : Bytes) :
    parse (r.write id) = .ok r := by
  have named : Format.require r.format.name = .ok r.format := by simp [Format.require]
  simp [parse, write, parts, named, args.decode, Except.bind, Except.map, arguments?]

/-- An answer is read as it was written. -/
theorem Answer.parse_write {f : Format} {result : Except String Data}
    (value : ∀ d, result = .ok d → f.RoundTrips d) (id : Bytes) :
    parse f.codec (write id f.codec result) = .ok result := by
  cases result with
  | error message => simp [write, error, parse]
  | ok d =>
    have decoded : f.decode (f.encode d) = .ok d := (value d rfl).decode
    obtain ⟨b, rest, bytes⟩ := List.exists_cons_of_ne_nil (f.encode_ne_nil d)
    rw [bytes] at decoded
    simp [write, bytes, parse, decoded]

theorem Answer.result_write {f : Format} {result : Except String Data}
    (value : ∀ d, result = .ok d → f.RoundTrips d) (id : Bytes) :
    Answer.result f.codec (write id f.codec result) = result := by
  rw [Answer.result, parse_write value]

end Net

end Troupe
