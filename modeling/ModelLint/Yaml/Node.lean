import ModelLint.Yaml.Token

/-!
# Nodes of YAML

`Node.ofTokens?` reads the one document of a list of tokens. A node is a scalar, a sequence or a
mapping, each with the type it may be given; a reference is the node that it names. Where a node is
missing, as behind a key without a value, there is the plain scalar without text.

Every list of items takes a token before each item, so twice the number of tokens bounds the
recursion.
-/

namespace ModelLint.Yaml

/-- A node. -/
inductive Node where
  /-- A scalar; a plain one may denote something else than its text. -/
  | scalar (tag : Option String) (text : String) (isPlain : Bool)
  /-- A sequence. -/
  | sequence (tag : Option String) (items : List Node)
  /-- A mapping. -/
  | mapping (tag : Option String) (entries : List (Node × Node))
deriving Inhabited

/-- What is left to read and the nodes that have a name. -/
structure Reading where
  /-- The tokens that are left. -/
  tokens : List Token
  /-- The named nodes. -/
  named : List (String × Node)

/-- A part of the reading, which may fail. -/
abbrev Read := StateT Reading Option

namespace Node

/-- The node where none is written. -/
def missing : Node := .scalar none "" true

/-- Whether the next token is one of a list. -/
def nextIn (tokens : List Token) : Read Bool := do
  return (← get).tokens.head?.any tokens.contains

/-- Takes the next token if it is the given one. -/
def take? (t : Token) : Read Bool := do
  let s ← get
  match s.tokens with
  | t' :: rest => if t' = t then set { s with tokens := rest }; return true else return false
  | [] => return false

/-- Takes the next token, which must be the given one. -/
def expect (t : Token) : Read Unit := do
  if ← take? t then return () else failure

/-- Takes a name, if one is next. -/
def name? : Read (Option String) := do
  let s ← get
  match s.tokens with
  | .anchor name :: rest => set { s with tokens := rest }; return some name
  | _ => return none

/-- The type that a handle and a suffix stand for. -/
def tagOf? : Option String → String → Option String
  | none, suffix => some suffix
  | some "!", suffix => some ("!" ++ suffix)
  | some "!!", suffix => some ("tag:yaml.org,2002:" ++ suffix)
  | some _, _ => none

/-- Takes a type, if one is next. -/
def tag? : Read (Option String) := do
  let s ← get
  match s.tokens with
  | .tag handle suffix :: rest =>
    set { s with tokens := rest }
    match tagOf? handle suffix with
    | some tag => return some tag
    | none => failure
  | _ => return none

/-- The name and the type of a node, in either order. -/
def properties : Read (Option String × Option String) := do
  match ← name? with
  | some name => return (some name, ← tag?)
  | none =>
    let tag ← tag?
    return (← name?, tag)

/-- Gives a node its name. -/
def register (name : Option String) (n : Node) : Read Node := do
  match name with
  | none => return n
  | some name =>
    let s ← get
    if (s.named.lookup name).isSome then failure
    else
      set { s with named := (name, n) :: s.named }
      return n

mutual

/-- A node; only one that `isBlock` may be a collection of lines, and only the value or key of a
mapping of lines may be a sequence at the same indentation. -/
def node : Nat → Bool → Bool → Read Node
  | 0, _, _ => failure
  | fuel + 1, isBlock, atMapping => do
    let s ← get
    match s.tokens with
    | .reference name :: rest =>
      set { s with tokens := rest }
      match s.named.lookup name with
      | some n => return n
      | none => failure
    | _ =>
      let (name, tag) ← properties
      let s ← get
      let goOn (rest : List Token) : Read Unit := set { s with tokens := rest }
      let n ← match s.tokens with
        | .blockEntry :: _ =>
          if atMapping then pure (.sequence tag (← lineItems fuel))
          else if name.isSome ∨ tag.isSome then pure (.scalar tag "" true)
          else failure
        | .scalar text isPlain :: rest => do goOn rest; pure (.scalar tag text isPlain)
        | .flowSequence :: rest => do goOn rest; pure (.sequence tag (← flowItems fuel true))
        | .flowMapping :: rest => do goOn rest; pure (.mapping tag (← flowEntries fuel true))
        | .blockSequence :: rest =>
          if isBlock then do
            goOn rest
            let items ← lineItems fuel
            expect .blockEnd
            pure (.sequence tag items)
          else if name.isSome ∨ tag.isSome then pure (.scalar tag "" true)
          else failure
        | .blockMapping :: rest =>
          if isBlock then do goOn rest; pure (.mapping tag (← lineEntries fuel))
          else if name.isSome ∨ tag.isSome then pure (.scalar tag "" true)
          else failure
        | _ => if name.isSome ∨ tag.isSome then pure (.scalar tag "" true) else failure
      register name n

/-- The items of a sequence of lines. -/
def lineItems : Nat → Read (List Node)
  | 0 => failure
  | fuel + 1 => do
    if ← take? .blockEntry then
      let item ←
        if ← nextIn [.blockEntry, .key, .value, .blockEnd] then pure missing
        else node fuel true false
      return item :: (← lineItems fuel)
    else return []

/-- The entries of a mapping of lines up to its end. -/
def lineEntries : Nat → Read (List (Node × Node))
  | 0 => failure
  | fuel + 1 => do
    if ← take? .key then
      let part : Read Node := do
        if ← nextIn [.key, .value, .blockEnd] then return missing else node fuel true true
      let key ← part
      let value ← if ← take? .value then part else pure missing
      return (key, value) :: (← lineEntries fuel)
    else
      expect .blockEnd
      return []

/-- The items of a bracketed sequence up to its end; an item may be a mapping of one entry. -/
def flowItems : Nat → Bool → Read (List Node)
  | 0, _ => failure
  | fuel + 1, isFirst => do
    if ← take? .flowSequenceEnd then return []
    else
      if !isFirst then expect .flowEntry
      if ← take? .flowSequenceEnd then return []
      else if ← take? .key then
        let key ←
          if ← nextIn [.value, .flowEntry, .flowSequenceEnd] then pure missing
          else node fuel false false
        let value ← flowValue fuel .flowSequenceEnd
        return .mapping none [(key, value)] :: (← flowItems fuel false)
      else
        let item ← node fuel false false
        return item :: (← flowItems fuel false)

/-- The entries of a bracketed mapping up to its end. -/
def flowEntries : Nat → Bool → Read (List (Node × Node))
  | 0, _ => failure
  | fuel + 1, isFirst => do
    if ← take? .flowMappingEnd then return []
    else
      if !isFirst then expect .flowEntry
      if ← take? .flowMappingEnd then return []
      else if ← take? .key then
        let key ←
          if ← nextIn [.value, .flowEntry, .flowMappingEnd] then pure missing
          else node fuel false false
        let value ← flowValue fuel .flowMappingEnd
        return (key, value) :: (← flowEntries fuel false)
      else
        let key ← node fuel false false
        return (key, missing) :: (← flowEntries fuel false)

/-- The value of an entry in brackets that end with a token. -/
def flowValue : Nat → Token → Read Node
  | 0, _ => failure
  | fuel + 1, ending => do
    if ← take? .value then
      if ← nextIn [.flowEntry, ending] then return missing else node fuel false false
    else return missing

end

/-! ## Documents -/

/-- Whether a directive is one that this version of YAML can be read under: the version, if it is
given, must be of the first family. -/
def isReadable (directive : String) : Bool :=
  match (directive.splitOn " ").filter (· ≠ "") with
  | ["YAML", version] =>
    match version.splitOn "." with
    | [major, minor] => major == "1" && minor ≠ "" && minor.all Char.isDigit
    | _ => false
  | "YAML" :: _ => false
  | [] => false
  | _ => true

/-- The directives before a document. -/
def directives : List Token → List String × List Token
  | .directive text :: rest =>
    let (more, rest) := directives rest
    (text :: more, rest)
  | tokens => ([], tokens)

/-- Whether the directives of a document can be followed. -/
def areReadable (texts : List String) : Bool :=
  texts.all isReadable && (texts.filter fun t => t.startsWith "YAML").length ≤ 1

/-- The node of a document behind its mark. -/
def content (fuel : Nat) : Read Node := do
  let s ← get
  match s.tokens with
  | [] | .directive _ :: _ | .documentStart :: _ | .documentEnd :: _ => return missing
  | _ => node fuel true false

/-- The node of the only document of a list of tokens; none if there is no document. -/
def ofTokens? (tokens : List Token) : Option (Option Node) := do
  let fuel := 2 * tokens.length + 2
  let (texts, rest) := directives tokens
  let (n, s) ← match texts, rest with
    | [], [] => some (none, ⟨[], []⟩)
    | [], .documentStart :: rest => ((content fuel).run ⟨rest, []⟩).map fun (n, s) => (some n, s)
    | [], rest => ((node fuel true false).run ⟨rest, []⟩).map fun (n, s) => (some n, s)
    | texts, .documentStart :: rest =>
      if areReadable texts then ((content fuel).run ⟨rest, []⟩).map fun (n, s) => (some n, s)
      else none
    | _, _ => none
  if s.tokens.all (· = .documentEnd) then some n else none

end Node

end ModelLint.Yaml
