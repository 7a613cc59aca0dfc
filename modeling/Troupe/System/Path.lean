/-!
# Paths

A path names an operation behind groups: the names of the members on the way, each followed by a slash,
and then the name of the operation.
-/

namespace Troupe.Path

/-- The part of a path before its first slash and the part after it, if there is a slash. -/
def split? : List Char → Option (List Char × List Char)
  | [] => none
  | c :: rest =>
    if c = '/' then some ([], rest) else (split? rest).map fun parts ↦ (c :: parts.1, parts.2)

theorem append_of_split? {path member rest : List Char} (h : split? path = some (member, rest)) :
    path = member ++ '/' :: rest := by
  induction path generalizing member with
  | nil => simp [split?] at h
  | cons c cs ih =>
    by_cases slash : c = '/'
    · simp only [split?, slash, if_true, Option.some.injEq, Prod.mk.injEq] at h
      simp [← h.1, ← h.2, slash]
    · simp only [split?, slash, if_false, Option.map_eq_some_iff, Prod.mk.injEq] at h
      obtain ⟨⟨m, r⟩, found, rfl, rfl⟩ := h
      simp [ih found]

theorem length_lt_of_split? {path member rest : List Char} (h : split? path = some (member, rest)) :
    rest.length < path.length := by
  rw [append_of_split? h]
  simp
  omega

end Troupe.Path
