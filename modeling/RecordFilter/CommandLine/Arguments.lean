/-
# Command lines

Reading the words of a command line.

Options have a long name and a letter; some take a value. `--name value`, `--name=value`, `-n
value`, `-nvalue` and `-n=value` say the same, letters of options without value can be put together,
and behind `--` every word is an operand.
-/

namespace RecordFilter.CommandLine

/-- An option of a command. -/
structure OptionSpec where
  name : String
  letter : Char
  takesValue : Bool

/-- Why the words of a command line are no command: they are refused, or the user asks for help. -/
inductive Refusal where
  | usage
  | help
deriving DecidableEq

/-- The words of a command, sorted: its operands in order, and the options given, each with its
value if it takes one. -/
structure Words where
  operands : List String
  options : List (String × Option String)

namespace Words

def empty : Words :=
  ⟨[], []⟩

def addOperand (w : Words) (word : String) : Words :=
  { w with operands := w.operands ++ [word] }

/-- Adds an option. None may be given twice, and no value may be empty. -/
def addOption (w : Words) (spec : OptionSpec) (value : Option String) : Except Refusal Words :=
  if (w.options.lookup spec.name).isSome || value == some "" then .error .usage
  else .ok { w with options := w.options ++ [(spec.name, value)] }

def has (w : Words) (name : String) : Bool :=
  (w.options.lookup name).isSome

def value? (w : Words) (name : String) : Option String :=
  (w.options.lookup name).join

end Words

/-- Whether a word would be read as an option, and so cannot be the value of one. -/
def looksLikeOption (word : String) : Bool :=
  word.startsWith "-" && word != "-"

/-- The value of an option that stands in a word of its own, and the words behind it. -/
def nextValue : List String → Except Refusal (String × List String)
  | word :: words => if looksLikeOption word then .error .usage else .ok (word, words)
  | [] => .error .usage

/-- Reads letters put together behind one dash. The last may take a value: the rest of the word, or
the next word. -/
def readLetters (specs : List OptionSpec) (w : Words) (words : List String) :
    List Char → Except Refusal (Words × List String)
  | [] => .ok (w, words)
  | letter :: rest =>
    match specs.find? (·.letter == letter) with
    | none => .error (if letter = 'h' then .help else .usage)
    | some spec =>
      if !spec.takesValue then do readLetters specs (← w.addOption spec none) words rest
      else match rest with
        | [] => do
          let (value, words) ← nextValue words
          return (← w.addOption spec (some value), words)
        | '=' :: value => do return (← w.addOption spec (some (String.ofList value)), words)
        | value => do return (← w.addOption spec (some (String.ofList value)), words)

/-- Reads a long option, behind its dashes. -/
def readLong (specs : List OptionSpec) (w : Words) (words : List String) (text : List Char) :
    Except Refusal (Words × List String) := do
  let name := String.ofList (text.takeWhile (· != '='))
  let inWord := text.dropWhile (· != '=')
  match specs.find? (·.name == name) with
  | none => .error (if name = "help" ∧ inWord.isEmpty then .help else .usage)
  | some spec =>
    match spec.takesValue, inWord with
    | false, [] => return (← w.addOption spec none, words)
    | false, _ => .error .usage
    | true, _ :: value => return (← w.addOption spec (some (String.ofList value)), words)
    | true, [] =>
      let (value, words) ← nextValue words
      return (← w.addOption spec (some value), words)

/-- Sorts words behind those sorted. The first argument bounds the number of steps; one for each
word is enough. -/
def sortWords (specs : List OptionSpec) : Nat → Words → List String → Except Refusal Words
  | _, w, [] => .ok w
  | 0, _, _ :: _ => .error .usage
  | bound + 1, w, word :: words =>
    match word.toList with
    | ['-', '-'] => .ok { w with operands := w.operands ++ words }
    | '-' :: '-' :: text => do
      let (w, words) ← readLong specs w words text
      sortWords specs bound w words
    | '-' :: letter :: letters => do
      let (w, words) ← readLetters specs w words (letter :: letters)
      sortWords specs bound w words
    | _ => sortWords specs bound (w.addOperand word) words

/-! ## Commands -/

/-- What is to be compiled, where its texts are, and how the result is to be written. -/
structure Request where
  query : String
  schemaFile : String
  settingsFile : Option String
  distinct : Bool
  pretty : Bool

/-- A command. -/
inductive Command where
  | check (query : String)
  | compile (request : Request)
  | filter (request : Request) (inputFile : Option String)
  | docs
  | doc (category : String)
  | version

def compileOptions : List OptionSpec :=
  [⟨"schema", 's', true⟩, ⟨"config", 'c', true⟩, ⟨"distinct", 'd', false⟩, ⟨"pretty", 'p', false⟩]

def filterOptions : List OptionSpec :=
  compileOptions ++ [⟨"input", 'i', true⟩]

/-- The request of sorted words: one operand, and a schema. -/
def Request.ofWords (w : Words) : Except Refusal Request :=
  match w.operands, w.value? "schema" with
  | [query], some schema => .ok {
      query := query
      schemaFile := schema
      settingsFile := w.value? "config"
      distinct := w.has "distinct"
      pretty := w.has "pretty" }
  | _, _ => .error .usage

/-- Reads the words behind the name of a command. -/
def Command.ofWords (name : String) (words : List String) : Except Refusal Command := do
  let sorted (specs : List OptionSpec) := sortWords specs words.length .empty words
  match name with
  | "check" =>
    match (← sorted []).operands with
    | [query] => return .check query
    | _ => .error .usage
  | "compile" => return .compile (← Request.ofWords (← sorted compileOptions))
  | "filter" =>
    let w ← sorted filterOptions
    return .filter (← Request.ofWords w) (w.value? "input")
  | "docs" =>
    match (← sorted []).operands with
    | [] => return .docs
    | _ => .error .usage
  | "doc" =>
    match (← sorted []).operands with
    | [category] => return .doc category
    | _ => .error .usage
  | "help" => .error .help
  | _ => .error .usage

/-- Reads a command line. -/
def Command.read : List String → Except Refusal Command
  | [] => .error .usage
  | word :: words =>
    if word = "--version" ∨ word = "-V" then .ok .version
    else if word = "--help" ∨ word = "-h" then .error .help
    else Command.ofWords word words

end RecordFilter.CommandLine
