import ModelLint.Data.NameSet
import ModelLint.Source.Written
import ModelLint.Text.Upper

/-!
# Names and types that syntax shows

What can be read off an expression without knowing what its names stand for: its name with points,
the names that an assignment binds, the type that an annotation names, and the type that a value is
likely to have.
-/

namespace ModelLint.Source

/-! ## Names -/

/-- The part of a name behind its last point. -/
def lastSegment (name : String) : String :=
  String.ofList ((name.toList.splitOn '.').getLastD [])

/-- The first of two texts that is there and not empty, or else the second one. -/
def firstGiven (a b : Option String) : Option String :=
  if a.any (· ≠ "") then a else b

/-- Whether a name starts with a capital letter. -/
def startsUpper (name : String) : Bool := name.toList.head?.any Text.isUpper

namespace Expr

/-- The name with points that an expression is. -/
def dotted? : Expr → Option String
  | .name _ id => some id
  | .attribute _ value attr => (dotted? value).map fun name => name ++ "." ++ attr
  | _ => none

mutual

/-- The names that an assignment to an expression binds. -/
def boundNames : Expr → List String
  | .name _ id => [id]
  | .compound _ .tuple es | .compound _ .list es => boundNamesOf es
  | .compound _ .starred [e] => boundNames e
  | _ => []

/-- The names that an assignment to several expressions binds. -/
def boundNamesOf : List Expr → List String
  | [] => []
  | e :: es => boundNames e ++ boundNamesOf es

end

/-- The name of an expression that is nothing but a name. -/
def name? : Expr → Option String
  | .name _ id => some id
  | _ => none

/-! ## Types -/

/-- The annotations that stand for the type of their first argument. -/
def transparentTypes : List String := ["Optional", "Annotated", "ClassVar", "Final"]

/-- The type that an annotation names. Of two alternatives the first counts, unless it is `None`. -/
def annotatedType : Expr → Option String
  | .constant _ (.data (.str text)) _ => some text
  | .subscript _ base (.compound _ .tuple (e :: _)) =>
    match dotted? base with
    | some type => if transparentTypes.contains (lastSegment type) then annotatedType e else some type
    | none => none
  | .subscript _ base index =>
    match dotted? base with
    | some type =>
      if transparentTypes.contains (lastSegment type) then annotatedType index else some type
    | none => none
  | .compound _ (.binary .bitOr) [left, right] =>
    match annotatedType left with
    | some type => if type = "" ∨ type = "None" then annotatedType right else some type
    | none => annotatedType right
  | .attribute _ value attr => (dotted? value).map fun path => path ++ "." ++ attr
  | .name _ id => some id
  | _ => none

/-- The types of the values that well-known functions open. -/
def openedTypes : List (String × String) :=
  [("open", "TextIOWrapper"), ("io.open", "TextIOWrapper"), ("os.fdopen", "TextIOWrapper"),
    ("codecs.open", "StreamReaderWriter"), ("gzip.open", "GzipFile"), ("bz2.open", "BZ2File"),
    ("lzma.open", "LZMAFile"), ("tarfile.open", "TarFile"), ("socket", "socket"),
    ("socket.socket", "socket"), ("socket.create_connection", "socket"),
    ("sqlite3.connect", "Connection"), ("psycopg2.connect", "Connection"),
    ("pymysql.connect", "Connection"), ("urlopen", "HTTPResponse"),
    ("request.urlopen", "HTTPResponse"), ("urllib.request.urlopen", "HTTPResponse")]

/-- The functions that make collections of their own name. -/
def collectionMakers : List String :=
  ["dict", "list", "set", "frozenset", "tuple", "defaultdict", "deque"]

/-- The type of the result of a function, by its name. -/
def resultType (function : String) : Option String :=
  match openedTypes.lookup function with
  | some type => some type
  | none =>
    let last := lastSegment function
    if startsUpper last then some function
    else if collectionMakers.contains last then some last
    else none

/-- The type that a value is likely to have. -/
def likelyType : Expr → Option String
  | .dict _ _ => some "dict"
  | .comprehension _ .dict _ _ _ => some "dict"
  | .compound _ .list _ => some "list"
  | .comprehension _ .list _ _ _ => some "list"
  | .compound _ .set _ => some "set"
  | .comprehension _ .set _ _ _ => some "set"
  | .compound _ .await [e] => likelyType e
  | .call _ function _ _ => (dotted? function).bind resultType
  | _ => none

/-- The function of a call, or the expression itself. -/
def callee : Expr → Expr
  | .call _ function _ _ => function
  | e => e

/-- The types that a handler names; one without a name is given by its source. -/
def handledTypes : Option Expr → Option (List String)
  | none => some []
  | some (.compound _ .tuple es) => es.mapM fun e => e.dotted?.or e.written?
  | some e => do return [← e.dotted?.or e.written?]

end Expr

/-- The last segments of the names of decorators. -/
def Signature.decoratorNames (s : Signature) : List String :=
  (s.decorators.filterMap fun e => e.callee.dotted?).map lastSegment

/-- The type that an annotation names, or else the likely type of the value. -/
def declaredType (typeHint value : Option Expr) : Option String :=
  firstGiven (typeHint.bind Expr.annotatedType) (value.bind Expr.likelyType)

/-! ## Built-in names -/

/-- The names that every module can use without binding them. -/
def builtinNames : List String :=
  ["ArithmeticError", "AssertionError", "AttributeError", "BaseException", "BaseExceptionGroup",
    "BlockingIOError", "BrokenPipeError", "BufferError", "BytesWarning", "ChildProcessError",
    "ConnectionAbortedError", "ConnectionError", "ConnectionRefusedError", "ConnectionResetError",
    "DeprecationWarning", "EOFError", "Ellipsis", "EncodingWarning", "EnvironmentError",
    "Exception", "ExceptionGroup", "False", "FileExistsError", "FileNotFoundError",
    "FloatingPointError", "FutureWarning", "GeneratorExit", "IOError", "ImportError",
    "ImportWarning", "IndentationError", "IndexError", "InterruptedError", "IsADirectoryError",
    "KeyError", "KeyboardInterrupt", "LookupError", "MemoryError", "ModuleNotFoundError",
    "NameError", "None", "NotADirectoryError", "NotImplemented", "NotImplementedError", "OSError",
    "OverflowError", "PendingDeprecationWarning", "PermissionError", "ProcessLookupError",
    "RecursionError", "ReferenceError", "ResourceWarning", "RuntimeError", "RuntimeWarning",
    "StopAsyncIteration", "StopIteration", "SyntaxError", "SyntaxWarning", "SystemError",
    "SystemExit", "TabError", "TimeoutError", "True", "TypeError", "UnboundLocalError",
    "UnicodeDecodeError", "UnicodeEncodeError", "UnicodeError", "UnicodeTranslateError",
    "UnicodeWarning", "UserWarning", "ValueError", "Warning", "ZeroDivisionError",
    "__annotations__", "__build_class__", "__class__", "__debug__", "__delattr__", "__dict__",
    "__dir__", "__doc__", "__eq__", "__format__", "__ge__", "__getattribute__", "__getstate__",
    "__gt__", "__hash__", "__import__", "__init__", "__init_subclass__", "__le__", "__loader__",
    "__lt__", "__name__", "__ne__", "__new__", "__package__", "__reduce__", "__reduce_ex__",
    "__repr__", "__setattr__", "__sizeof__", "__spec__", "__str__", "__subclasshook__", "abs",
    "aiter", "all", "anext", "any", "ascii", "bin", "bool", "breakpoint", "bytearray", "bytes",
    "callable", "chr", "classmethod", "compile", "complex", "copyright", "credits", "delattr",
    "dict", "dir", "divmod", "enumerate", "eval", "exec", "exit", "filter", "float", "format",
    "frozenset", "getattr", "globals", "hasattr", "hash", "help", "hex", "id", "input", "int",
    "isinstance", "issubclass", "iter", "len", "license", "list", "locals", "map", "max",
    "memoryview", "min", "next", "object", "oct", "open", "ord", "pow", "print", "property",
    "quit", "range", "repr", "reversed", "round", "set", "setattr", "slice", "sorted",
    "staticmethod", "str", "sum", "super", "tuple", "type", "vars", "zip"]

end ModelLint.Source
