/-!
Anchors that an author wrote. An escaped character is none, and neither is a member of a bracket
class; a named class between colons is one member.
-/

namespace AnswerGrading

/-- Where a reader stands: outside of brackets, right after an opening bracket, after a `^` there,
inside brackets, or inside a named class. -/
inductive ClassPlace where
  | outside
  | opened
  | negated
  | inside
  | named
  deriving DecidableEq, Repr

def anchorFrom? : ClassPlace → List Char → Option Char
  | _, [] => none
  | .named, ':' :: ']' :: cs => anchorFrom? .inside cs
  | .named, _ :: cs => anchorFrom? .named cs
  | .opened, '^' :: cs => anchorFrom? .negated cs
  | .opened, ']' :: cs => anchorFrom? .inside cs
  | .negated, ']' :: cs => anchorFrom? .inside cs
  | .outside, c :: cs =>
      if c = '\\' then
        match cs with
        | [] => none
        | _ :: cs => anchorFrom? .outside cs
      else if c = '[' then anchorFrom? .opened cs
      else if c = '^' ∨ c = '$' then some c
      else anchorFrom? .outside cs
  | _, c :: cs =>
      if c = '\\' then
        match cs with
        | [] => none
        | _ :: cs => anchorFrom? .inside cs
      else if c = ']' then anchorFrom? .outside cs
      else if c = '[' then
        match cs with
        | ':' :: cs => anchorFrom? .named cs
        | cs => anchorFrom? .inside cs
      else anchorFrom? .inside cs

def unescapedAnchor? (fragment : List Char) : Option Char :=
  anchorFrom? .outside fragment

end AnswerGrading
