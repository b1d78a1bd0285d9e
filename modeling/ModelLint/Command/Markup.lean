import ModelLint.Text.Blank
import ModelLint.Text.Case

/-!
# Markup

In markup a tag in brackets starts a style, and a tag with a slash ends one: the innermost, or the
innermost of the name behind the slash. A backslash before a bracket makes it a plain bracket, and
`escape` uses this so that nothing in a text is taken for a tag. `plain?` is what is left of a text
without its tags.
-/

namespace ModelLint.Markup

/-! ## Tags -/

/-- Whether a tag may start with the character. -/
def startsTag (c : Char) : Bool := ('a' ≤ c && c ≤ 'z') || c = '#' || c = '/' || c = '@'

/-- A tag at the start of a text, up to its closing bracket, and what follows it. -/
def tag? : List Char → Option (List Char × List Char)
  | '[' :: c :: rest =>
    if startsTag c then
      match rest.span fun d => d ≠ '[' && d ≠ ']' with
      | (inside, ']' :: after) => some ('[' :: c :: inside ++ [']'], after)
      | _ => none
    else none
  | _ => none

/-! ## Escaping -/

/-- Escapes the tags of a text of at most `fuel` characters: the backslashes before a tag are
doubled and one more is put before its bracket. -/
def escapeTags : Nat → List Char → List Char
  | 0, _ => []
  | _ + 1, [] => []
  | fuel + 1, c :: cs =>
    let (slashes, rest) := (c :: cs).span (· = '\\')
    match tag? rest with
    | some (tag, after) => slashes ++ slashes ++ '\\' :: tag ++ escapeTags fuel after
    | none =>
      match slashes with
      | [] => c :: escapeTags fuel cs
      | _ => slashes ++ escapeTags fuel rest

/-- Doubles a single backslash at the end. -/
def escapeEnd (cs : List Char) : List Char :=
  match cs.reverse with
  | '\\' :: '\\' :: _ => cs
  | '\\' :: _ => cs ++ ['\\']
  | _ => cs

/-- A text of which nothing is taken for markup. -/
def escape (s : String) : String :=
  String.ofList (escapeEnd (escapeTags (s.length + 1) s.toList))

/-! ## Reading -/

/-- The name of a style, whose case does not count. -/
def styleName (cs : List Char) : List Char := (Text.lower (String.ofList (Text.trim cs))).toList

/-- The styles that are open behind a tag, innermost first; none if the tag ends a style that is not
open. -/
def openStyles? (styles : List (List Char)) (tag : List Char) : Option (List (List Char)) :=
  match ((tag.drop 1).dropLast).takeWhile (· ≠ '=') with
  | '/' :: name =>
    let name := styleName name
    if name = [] then
      match styles with
      | [] => none
      | _ :: outer => some outer
    else if styles.contains name then some (styles.erase name) else none
  | name => some (styleName name :: styles)

/-- The text without tags of a text of at most `fuel` characters, where some styles are open. -/
def plainFrom : Nat → List (List Char) → List Char → Option (List Char)
  | 0, _, _ => some []
  | _ + 1, _, [] => some []
  | fuel + 1, styles, c :: cs =>
    let (slashes, rest) := (c :: cs).span (· = '\\')
    match tag? rest with
    | some (tag, after) =>
      let kept := slashes.take (slashes.length / 2)
      if slashes.length % 2 = 1 then (plainFrom fuel styles after).map (kept ++ tag ++ ·)
      else do return kept ++ (← plainFrom fuel (← openStyles? styles tag) after)
    | none =>
      match slashes, rest with
      | [], _ => (plainFrom fuel styles cs).map (c :: ·)
      | _ :: others, '[' :: after => (plainFrom fuel styles after).map (others ++ '[' :: ·)
      | slashes, rest => (plainFrom fuel styles rest).map (slashes ++ ·)

/-- A text without its tags; none if it ends a style that is not open. -/
def plain? (s : String) : Option String :=
  (plainFrom (s.length + 1) [] s.toList).map String.ofList

end ModelLint.Markup
