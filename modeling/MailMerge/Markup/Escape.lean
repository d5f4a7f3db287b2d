/-
Backslash escapes. A backslash makes the next character stand for itself; where characters end a
run, an escaped one does not.
-/
namespace MailMerge.Markup

/-- A text with every escape replaced by the character that it stands for. -/
def unescape : List Char → List Char
  | [] => []
  | '\\' :: c :: rest => c :: unescape rest
  | c :: rest => c :: unescape rest

/-- A text with a backslash in front of the characters that `special` tells. -/
def escape (special : Char → Bool) (cs : List Char) : List Char :=
  cs.flatMap fun c => if special c then ['\\', c] else [c]

/-- What may stand in a run: plain characters, told also by the one that follows them, and a
backslash in front of the characters that can be escaped. -/
structure Units where
  plain : Char → Option Char → Bool
  escapable : Char → Bool

/-- The longest run of units at the start of a text, with what follows it. -/
def Units.span (u : Units) : List Char → List Char × List Char
  | [] => ([], [])
  | '\\' :: c :: rest =>
    if u.escapable c then
      let more := u.span rest
      ('\\' :: c :: more.1, more.2)
    else ([], '\\' :: c :: rest)
  | c :: rest =>
    if c ≠ '\\' ∧ u.plain c rest.head? then
      let more := u.span rest
      (c :: more.1, more.2)
    else ([], c :: rest)

theorem Units.span_append (u : Units) (cs : List Char) : (u.span cs).1 ++ (u.span cs).2 = cs := by
  fun_induction Units.span u cs with
  | case1 => rfl
  | case2 c rest _ more ih => simp [more, ih]
  | case3 => simp
  | case4 c rest _ _ more ih => simp [more, ih]
  | case5 => simp

/-- The longest run of units between two quotes `quote`, with what follows the closing one. -/
def Units.spanQuoted (u : Units) (quote : Char) (cs : List Char) :
    Option (List Char × List Char) :=
  match cs with
  | [] => none
  | c :: rest =>
    if c = quote then
      match (u.span rest).2 with
      | [] => none
      | d :: rest' => if d = quote then some ((u.span rest).1, rest') else none
    else none

theorem Units.spanQuoted_append {u : Units} {quote : Char} {cs inside rest : List Char}
    (h : u.spanQuoted quote cs = some (inside, rest)) :
    quote :: inside ++ quote :: rest = cs := by
  unfold spanQuoted at h
  split at h
  · simp at h
  · rename_i c cs
    have hspan := u.span_append cs
    split at h
    · split at h
      · simp at h
      · rename_i d rest' hd
        split at h
        · simp_all
        · simp at h
    · simp at h

end MailMerge.Markup
