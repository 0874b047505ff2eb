import Plotline.Files.Path
import Plotline.Number.Whole

/-!
# Command lines

* `OptionSpec`, `Parsed`, `parse?`: options and operands among the words of a command line.
* `Command`: what is asked for.
* `Invocation`: the whole of a command line.
* `Invocation.ofWords?`: the invocation that the words of a command line spell.
-/

namespace Plotline.CommandLine
open Files

/-! ## Options and operands -/

/-- An option: a word behind two dashes, and perhaps a letter behind one. -/
structure OptionSpec where
  word : String
  letter : Option Char := none
  takesValue : Bool := false

/-- Options with their values, and the words that are no options, in order. -/
structure Parsed where
  options : List (String × String) := []
  operands : List String := []

namespace Parsed

def has (p : Parsed) (word : String) : Bool := p.options.any (·.1 = word)

def count (p : Parsed) (word : String) : Nat := p.options.countP (·.1 = word)

def value? (p : Parsed) (word : String) : Option String := (p.options.reverse.find? (·.1 = word)).map (·.2)

end Parsed

/-- The options in a run of letters, and the one whose value is to come; the rest of a run can be a value. -/
def letters? (specs : List OptionSpec) : List Char → Option (List (String × String) × Option String)
  | [] => some ([], none)
  | c :: cs =>
    match specs.find? (·.letter = some c) with
    | none => none
    | some spec =>
      if spec.takesValue then
        if cs.isEmpty then some ([], some spec.word) else some ([(spec.word, String.ofList cs)], none)
      else (letters? specs cs).map fun r => ((spec.word, "") :: r.1, r.2)

/-- The option that a word behind two dashes spells, perhaps with its value behind an equals sign, or the one whose
value is to come. -/
def long? (specs : List OptionSpec) (s : List Char) : Option (List (String × String) × Option String) :=
  let word := String.ofList (s.takeWhile (· ≠ '='))
  match specs.find? (·.word = word), s.dropWhile (· ≠ '=') with
  | none, _ => none
  | some spec, [] => some (if spec.takesValue then ([], some word) else ([(word, "")], none))
  | some spec, _ :: value => if spec.takesValue then some ([(word, String.ofList value)], none) else none

/-- Reads on in a command line. Options may stand among operands if `mixed`; behind two dashes there are only
operands. -/
def parseFrom? (specs : List OptionSpec) (mixed : Bool) : Parsed → List String → Option Parsed
  | p, [] => some p
  | p, word :: words =>
    let read : Option (List (String × String) × Option String) :=
      match word.toList with
      | '-' :: '-' :: s => long? specs s
      | '-' :: s => letters? specs s
      | _ => none
    if word = "--" then some { p with operands := p.operands ++ words }
    else if word.startsWith "-" && word ≠ "-" then
      match read, words with
      | none, _ => none
      | some (options, none), words => parseFrom? specs mixed { p with options := p.options ++ options } words
      | some (_, some _), [] => none
      | some (options, some word), value :: words =>
        parseFrom? specs mixed { p with options := p.options ++ options ++ [(word, value)] } words
    else if mixed then parseFrom? specs mixed { p with operands := p.operands ++ [word] } words
    else some { p with operands := p.operands ++ word :: words }

def parse? (specs : List OptionSpec) (mixed : Bool) (words : List String) : Option Parsed :=
  parseFrom? specs mixed {} words

/-! ## Commands -/

/-- A language for diagrams. -/
inductive Markup where
  | dot
  | mermaid
deriving DecidableEq, Repr

def Markup.ofName? : String → Option Markup
  | "dot" => some .dot
  | "mermaid" => some .mermaid
  | _ => none

inductive Command where
  | version
  | analyze (path : Path) (json : Bool)
  /-- The cap on routes replaces that of the settings. -/
  | routes (path : Path) (json : Bool) (cap : Option Int)
  | graph (path : Path) (byRoute : Bool) (markup : Markup)
  | layout (path : Path) (byRoute : Bool)
  | inspect (path : Path)
deriving DecidableEq

namespace Command

def path? : Command → Option Path
  | version => none
  | analyze p _ => some p
  | routes p _ _ => some p
  | graph p _ _ => some p
  | layout p _ => some p
  | inspect p => some p

def names : List String := ["version", "analyze", "routes", "graph", "layout", "inspect"]

def options (name : String) : List OptionSpec :=
  match name with
  | "analyze" => [⟨"json", none, false⟩]
  | "routes" => [⟨"json", none, false⟩, ⟨"max-routes", none, true⟩]
  | "graph" => [⟨"routes", none, false⟩, ⟨"format", some 'f', true⟩]
  | "layout" => [⟨"routes", none, false⟩]
  | _ => []

def cap? (s : String) : Option Int := (Number.whole? s.toList).filter (0 < ·)

/-- The cap on routes that an option gives, or else a setting of the environment that is not empty. -/
def capOf? (option environment : Option String) : Option (Option Int) :=
  match option, environment.filter (!·.isEmpty) with
  | some s, _ => (cap? s).map some
  | none, some s => (cap? s).map some
  | none, none => some none

def ofWords? (environment : Option String) (name : String) (words : List String) : Option Command := do
  let p ← parse? (options name) true words
  match name, p.operands with
  | "version", [] => some .version
  | "analyze", [path] => some (.analyze (Path.ofText path) (p.has "json"))
  | "routes", [path] => do
    let cap ← capOf? (p.value? "max-routes") environment
    some (.routes (Path.ofText path) (p.has "json") cap)
  | "graph", [path] => do
    let markup ← Markup.ofName? ((p.value? "format").getD "dot")
    some (.graph (Path.ofText path) (p.has "routes") markup)
  | "layout", [path] => some (.layout (Path.ofText path) (p.has "routes"))
  | "inspect", [path] => some (.inspect (Path.ofText path))
  | _, _ => none

end Command

structure Invocation where
  /-- How often more output was asked for. -/
  verbosity : Nat
  log : Option Path
  /-- The command, unless its words make no sense. -/
  command : Option Command
deriving DecidableEq

def globalOptions : List OptionSpec := [⟨"verbose", some 'v', false⟩, ⟨"log", none, true⟩]

/-- The invocation that words spell, if they name a command; `environment` is the cap on routes that the environment
sets. -/
def Invocation.ofWords? (environment : Option String) (words : List String) : Option Invocation := do
  let p ← parse? globalOptions false words
  match p.operands with
  | [] => none
  | name :: words =>
    if Command.names.contains name then
      some ⟨p.count "verbose", (p.value? "log").map Path.ofText, Command.ofWords? environment name words⟩
    else none

end Plotline.CommandLine
