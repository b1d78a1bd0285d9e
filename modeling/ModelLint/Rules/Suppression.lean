import ModelLint.Text.Blank
import ModelLint.Text.Case

/-!
# Suppression comments

A comment covers a rule when it holds one of the phrases, ignoring case, and the phrase is either
not followed by a list in brackets or by a list that names the rule. A phrase is looked for in the
lower case of the comment; the place where it ends there is then a place in the comment itself.
-/

namespace ModelLint.Suppression

/-- Where a text first occurs in another one. -/
def indexOf? (needle : List Char) : List Char → Option Nat
  | [] => if needle = [] then some 0 else none
  | c :: cs => if needle.isPrefixOf (c :: cs) then some 0 else (indexOf? needle cs).map (· + 1)

/-- The entries of a list in brackets behind blanks, if the text starts with one. -/
def bracketList? (cs : List Char) : Option (List String) :=
  match cs.dropWhile Text.isBlank with
  | '[' :: rest =>
    match rest.span (· ≠ ']') with
    | (_, []) => none
    | (inside, _) => some ((inside.splitOn ',').map fun entry => String.ofList (Text.trim entry))
  | _ => none

/-- Whether a phrase in a comment covers a rule. -/
def phraseCovers (comment : String) (ruleId phrase : String) : Bool :=
  match indexOf? (Text.lower phrase).toList (Text.lower comment).toList with
  | none => false
  | some index =>
    match bracketList? (comment.toList.drop (index + phrase.length)) with
    | none => true
    | some ids => ids.contains ruleId

/-- Whether a comment covers a rule. -/
def covers (comment : String) (phrases : List String) (ruleId : String) : Bool :=
  phrases.any (phraseCovers comment ruleId)

/-- The comment of a line. -/
def commentAt? (comments : List (Int × String)) (line : Int) : Option String :=
  (comments.find? (·.1 == line)).map (·.2)

/-- Whether a comment on a line or on the line above covers a rule there. -/
def coversLine (comments : List (Int × String)) (phrases : List String) (ruleId : String)
    (line : Int) : Bool :=
  [line, line - 1].any fun l =>
    (commentAt? comments l).any fun comment => comment ≠ "" && covers comment phrases ruleId

end ModelLint.Suppression
