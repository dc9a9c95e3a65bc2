import FileDepot.Text.Pieces

/-!
# Arguments

The words of a command line, sorted into options and other words.

An option is written as `--option value`, as `--option=value`, or, if it has a letter, as `-o value` or
`-ovalue`. Names are written in full. Two dashes alone end the options.

Contents:

* `OptionName`, `Misuse` — the options, and what can be wrong with a line;
* `OptionWord.read` — what one word that starts with a dash gives;
* `Arguments.scan` — the options and the other words of a line;
* `Arguments.value?`, `Arguments.values` — what an option was given;
* `Arguments.scan_words` — a line without options holds words alone.
-/

namespace FileDepot

/-- The options that take a value. -/
inductive OptionName
  | config
  | bucket
  | name
  | contentType
  | entry
  | output
  deriving Repr, DecidableEq, Inhabited

namespace OptionName

/-- How an option is written in full. -/
def spelling : OptionName → String
  | .config => "--config"
  | .bucket => "--bucket"
  | .name => "--name"
  | .contentType => "--content-type"
  | .entry => "--meta"
  | .output => "--output"

/-- The letter of an option that has one. -/
def letter? : OptionName → Option Char
  | .output => some 'o'
  | _ => none

end OptionName

/-- What can be wrong with a command line. -/
inductive Misuse
  /-- A line without words. -/
  | nothingGiven
  /-- A word that starts with a dash and is no option. -/
  | unknownOption (word : String)
  /-- An option at the end of the line, without its value. -/
  | missingValue (option : OptionName)
  /-- A value for the option that asks for help. -/
  | needlessValue
  /-- A line that names no command. -/
  | missingCommand
  /-- A word in the place of a command that names none. -/
  | unknownCommand (word : String)
  /-- A command without the word that it works on. -/
  | missingWord
  /-- A word more than the command takes. -/
  | extraWord (word : String)
  /-- A path that does not lead to what it must lead to. -/
  | unfitPath (path : String)
  deriving Repr, DecidableEq, Inhabited

/-! ## Words with a dash -/

/-- What a word that starts with a dash gives. -/
inductive OptionWord
  /-- It asks for help. -/
  | help
  /-- It gives an option its value. -/
  | complete (option : OptionName) (value : String)
  /-- It names an option, whose value is the next word. -/
  | awaiting (option : OptionName)
  deriving Repr, DecidableEq, Inhabited

namespace OptionWord

/-- How help is asked for. -/
def helpSpelling : String := "--help"

/-- The word starts with a dash and is not the dash alone. -/
def isOption (word : String) : Bool :=
  match word.toList with
  | '-' :: _ :: _ => true
  | _ => false

/-- Reads a dash and a letter; what follows the letter is the value. -/
def readLetter (accepted : List OptionName) (word : String) : Except Misuse OptionWord :=
  match word.toList with
  | '-' :: c :: rest =>
    match accepted.find? fun o => o.letter? == some c with
    | some o => .ok (if rest.isEmpty then .awaiting o else .complete o (String.ofList rest))
    | none => .error (.unknownOption word)
  | _ => .error (.unknownOption word)

/-- Reads a word that starts with a dash; an equals sign separates the name from the value. -/
def read (accepted : List OptionName) (word : String) : Except Misuse OptionWord :=
  let (name, value) :=
    match Text.cutAt? '=' word.toList with
    | some (name, value) => (String.ofList name, some (String.ofList value))
    | none => (word, none)
  if name = helpSpelling then
    if value.isSome then .error .needlessValue else .ok .help
  else
    match accepted.find? fun o => o.spelling == name, value with
    | some o, some value => .ok (.complete o value)
    | some o, none => .ok (.awaiting o)
    | none, _ => readLetter accepted word

end OptionWord

/-! ## Lines -/

/-- The words of a line: whether help is asked for, the options in order, and the other words. -/
structure Arguments where
  helpAsked : Bool := false
  options : List (OptionName × String) := []
  words : List String := []
  deriving Repr, DecidableEq, Inhabited

namespace Arguments

/-- The arguments with a request for help in front. -/
def withHelp (a : Arguments) : Arguments :=
  { a with helpAsked := true }

/-- The arguments with an option in front. -/
def withOption (o : OptionName) (value : String) (a : Arguments) : Arguments :=
  { a with options := (o, value) :: a.options }

/-- The arguments with another word in front. -/
def withWord (word : String) (a : Arguments) : Arguments :=
  { a with words := word :: a.words }

/-- Sorts the words of a line. Options may stand behind other words if they may be `scattered`; if not,
the first other word and all that follow it are taken as they are. -/
def scan (accepted : List OptionName) (scattered : Bool) : List String → Except Misuse Arguments
  | [] => .ok {}
  | word :: rest =>
    if word = "--" then .ok { words := rest }
    else if OptionWord.isOption word then
      match OptionWord.read accepted word with
      | .error m => .error m
      | .ok .help => (scan accepted scattered rest).map withHelp
      | .ok (.complete o value) => (scan accepted scattered rest).map (withOption o value)
      | .ok (.awaiting o) =>
        match rest with
        | [] => .error (.missingValue o)
        | value :: rest => (scan accepted scattered rest).map (withOption o value)
    else if scattered then (scan accepted scattered rest).map (withWord word)
    else .ok { words := word :: rest }

/-- The value that an option was given last. -/
def value? (a : Arguments) (o : OptionName) : Option String :=
  (a.options.filter fun e => e.1 == o).getLast?.map (·.2)

/-- All values that an option was given, in order. -/
def values (a : Arguments) (o : OptionName) : List String :=
  (a.options.filter fun e => e.1 == o).map (·.2)

/-- The words are at most one. -/
def optionalWord (a : Arguments) : Except Misuse (Option String) :=
  match a.words with
  | [] => .ok none
  | [word] => .ok (some word)
  | _ :: extra :: _ => .error (.extraWord extra)

/-- The words are one. -/
def onlyWord (a : Arguments) : Except Misuse String :=
  match a.words with
  | [] => .error .missingWord
  | [word] => .ok word
  | _ :: extra :: _ => .error (.extraWord extra)

/-! ## Lines without options -/

theorem not_isOption_dashes {word : String} (h : OptionWord.isOption word = false) : word ≠ "--" := by
  rintro rfl
  exact absurd h (by decide)

/-- A line of which no word starts with a dash, the dash alone apart, holds words alone. -/
theorem scan_words (accepted : List OptionName) (scattered : Bool) (line : List String)
    (h : ∀ word ∈ line, OptionWord.isOption word = false) :
    scan accepted scattered line = .ok { words := line } := by
  induction line with
  | nil => rfl
  | cons word rest ih =>
    have hword : OptionWord.isOption word = false := h word (by simp)
    have hrest := ih fun w hw => h w (by simp [hw])
    cases scattered with
    | false => simp [scan, hword, not_isOption_dashes hword]
    | true => simp [scan, hword, not_isOption_dashes hword, hrest, Except.map, withWord]

end Arguments

end FileDepot
