/-!
# Arguments of a command line

An argument that starts with a hyphen is an option, in a long form with two hyphens or a short one
with a hyphen and a letter. The value of a long option follows an equals sign or is the next
argument; that of a short one follows its letter or is the next argument. Short options without a
value may share a hyphen. Everything else, and everything behind `--`, is an operand. Options and
operands come in any order.
-/

namespace ModelLint

/-- An option of a command. -/
structure OptionForm where
  /-- The long form, with its hyphens. -/
  long : String
  /-- The letter of the short form. -/
  short : Option Char
  /-- Whether it has a value. -/
  hasValue : Bool
deriving DecidableEq, Inhabited

/-- What the arguments of a command say. -/
structure Arguments where
  /-- The options in order, by their long forms; one without a value has the empty text. -/
  options : List (String × String)
  /-- The operands in order. -/
  operands : List String
deriving DecidableEq, Inhabited

namespace Arguments

/-- No arguments. -/
def none : Arguments := ⟨[], []⟩

/-- Puts an option in front. -/
def withOption (form : OptionForm) (value : String) (a : Arguments) : Arguments :=
  { a with options := (form.long, value) :: a.options }

/-- Puts an operand in front. -/
def withOperand (operand : String) (a : Arguments) : Arguments :=
  { a with operands := operand :: a.operands }

/-- The last value of an option. -/
def value? (a : Arguments) (long : String) : Option String := (a.options.reverse.lookup long)

/-- The values of an option in order. -/
def values (a : Arguments) (long : String) : List String :=
  (a.options.filter fun (name, _) => name == long).map (·.2)

/-- Whether an option is given. -/
def has (a : Arguments) (long : String) : Bool := (a.value? long).isSome

/-- The options of letters behind one hyphen: those without a value, and what the last one needs. -/
def shortOptions? (forms : List OptionForm) :
    List Char → Option (List OptionForm × Option (OptionForm × List Char))
  | [] => some ([], .none)
  | c :: rest => do
    let form ← forms.find? fun form => form.short = some c
    if form.hasValue then return ([], some (form, rest))
    else
      let (others, last) ← shortOptions? forms rest
      return (form :: others, last)

/-- The options that an argument with a hyphen gives, and the one whose value is the next
argument. -/
def optionsOf? (forms : List OptionForm) (arg : String) :
    Option (List (OptionForm × String) × Option OptionForm) :=
  let (name, rest) := arg.toList.span (· ≠ '=')
  match forms.find? fun form => form.long = String.ofList name with
  | some form =>
    match form.hasValue, rest with
    | true, _ :: value => some ([(form, String.ofList value)], .none)
    | true, [] => some ([], some form)
    | false, [] => some ([(form, "")], .none)
    | false, _ :: _ => .none
  | .none =>
    match arg.toList with
    | '-' :: '-' :: _ => .none
    | '-' :: letters => do
      let (flags, last) ← shortOptions? forms letters
      let given := flags.map fun form => (form, "")
      match last with
      | .none => return (given, .none)
      | some (form, []) => return (given, some form)
      | some (form, value) => return (given ++ [(form, String.ofList value)], .none)
    | _ => .none

/-- What arguments say, if they fit the options of the command. -/
def parse? (forms : List OptionForm) : List String → Option Arguments
  | [] => some none
  | "--" :: rest => some ⟨[], rest⟩
  | arg :: rest =>
    if arg.startsWith "-" ∧ arg.length > 1 then do
      let (given, pending) ← optionsOf? forms arg
      let later ← match pending, rest with
        | .none, rest => parse? forms rest
        | some _, [] => .none
        | some form, value :: rest => (parse? forms rest).map (withOption form value)
      return given.foldr (fun (form, value) a => a.withOption form value) later
    else (parse? forms rest).map (withOperand arg)

end Arguments

end ModelLint
