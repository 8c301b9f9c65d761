import Brokerage.Command.Basic

/-!
The command line: options before or after the command, each at most once on either side, and the
values of the command. Two dashes end the options.
-/

namespace Brokerage

open Text

structure Invocation where
  path : String
  verbose : Bool
  command : Command
  deriving DecidableEq

namespace Invocation

inductive Stop where
  | misuse
  | help
  | version
  deriving DecidableEq

def standardPath : String := "broker.json"

structure Options where
  path : Option String
  verbose : Bool
  off : Bool
  deriving DecidableEq

def Options.none : Options := ⟨.none, false, false⟩

namespace Options

def addPath (path : String) (o : Options) : Except Stop Options :=
  if o.path.isSome || path.isEmpty then .error .misuse else .ok { o with path := some path }

def addVerbose (o : Options) : Except Stop Options :=
  if o.verbose then .error .misuse else .ok { o with verbose := true }

def addOff (o : Options) : Except Stop Options :=
  if o.off then .error .misuse else .ok { o with off := true }

def addLetters (onHelp onVersion : Stop) : List Char → Options → Except Stop Options
  | [], o => .ok o
  | 'v' :: cs, o => do addLetters onHelp onVersion cs (← o.addVerbose)
  | 'h' :: _, _ => .error onHelp
  | 'V' :: _, _ => .error onVersion
  | _ :: _, _ => .error .misuse

end Options

def isValue (a : String) : Bool :=
  match a.toList with
  | '-' :: _ :: _ => false
  | _ => true

def inlinePath? (a : String) : Option String :=
  let start := "--config=".toList
  if start.isPrefixOf a.toList then some (String.ofList (a.toList.drop start.length)) else .none

def isNegative (a : String) : Bool :=
  match a.toList with
  | '-' :: cs =>
    let (whole, cs) := takeDigits cs
    let cs := match cs with
      | '.' :: cs => (takeDigits cs).2
      | cs => cs
    ! whole.isEmpty && match cs with
      | [] => true
      | 'e' :: cs => let (power, cs) := takeDigits cs; ! power.isEmpty && cs.isEmpty
      | _ => false
  | _ => false

def readInt32? (s : String) : Option Int32 := do
  let n ← readInt? s.toList
  if Int32.minValue.toInt ≤ n ∧ n ≤ Int32.maxValue.toInt then some (Int32.ofInt n) else .none

/-- What the command allows after the values already met: flags that can be cleared, a value that
looks like a number below zero, and to ask for help. -/
structure Allowed where
  off : Bool
  negative : List String → Bool
  help : List String → Bool

def Allowed.asked (allowed : Allowed) (values : List String) : Stop :=
  if allowed.help values then .help else .misuse

def scan (allowed : Allowed) : List String → List String → Options →
    Except Stop (Options × List String)
  | [], values, o => .ok (o, values)
  | "--config" :: path :: args, values, o =>
    if isValue path || (allowed.negative values && isNegative path) then do
      scan allowed args values (← o.addPath path)
    else .error .misuse
  | a :: args, values, o =>
    if a = "--" then .ok (o, values ++ args)
    else if isValue a then scan allowed args (values ++ [a]) o
    else if a = "--verbose" then do scan allowed args values (← o.addVerbose)
    else if a = "--help" then .error (allowed.asked values)
    else if a = "--off" then
      if allowed.off then do scan allowed args values (← o.addOff) else .error .misuse
    else match inlinePath? a with
      | some path => do scan allowed args values (← o.addPath path)
      | none =>
        if allowed.negative values && isNegative a then
          scan allowed args (values ++ [a]) o
        else do
          scan allowed args values (← o.addLetters (allowed.asked values) .misuse a.toList.tail)

def mayStart : String → List String → Bool
  | "init", values | "show", values => values.isEmpty
  | "priority", [_, n] => (readInt32? n).isSome
  | "priority", values | "disable", values | "enable", values => values.length ≤ 1
  | "generous", _ => true
  | _, _ => false

def allowedFor (name : String) : Allowed :=
  ⟨name = "generous", fun values => name = "priority" && values.length = 1, mayStart name⟩

def command? (name : String) (off : Bool) (values : List String) : Option Command :=
  match name, values with
  | "init", [] => some .init
  | "show", [] => some .list
  | "priority", [id, n] => (readInt32? n).map (.rank id)
  | "disable", [id] => some (.disable id)
  | "enable", [id] => some (.enable id)
  | "generous", id :: ids => some (.generous (id :: ids) (! off))
  | _, _ => none

def fromCommand (before : Options) (name : String) (args : List String) :
    Except Stop Invocation := do
  let (after, values) ← scan (allowedFor name) args [] .none
  match command? name after.off values with
  | none => .error .misuse
  | some command =>
    let path := (after.path.orElse fun _ => before.path).getD standardPath
    .ok ⟨path, before.verbose || after.verbose, command⟩

def topics : List String := ["init", "show", "priority", "disable", "enable", "generous", "help"]

def helpOn : List String → Stop
  | [] => .help
  | [topic] => if topic ∈ topics then .help else .misuse
  | _ => .misuse

def leading : List String → Options → Except Stop Invocation
  | [], _ => .error .misuse
  | "--config" :: path :: args, o =>
    if isValue path then do leading args (← o.addPath path) else .error .misuse
  | a :: args, o =>
    if a = "help" then .error (helpOn args)
    else if isValue a then fromCommand o a args
    else if a = "--verbose" then do leading args (← o.addVerbose)
    else if a = "--help" then .error .help
    else if a = "--version" then .error .version
    else match inlinePath? a with
      | some path => do leading args (← o.addPath path)
      | none => do leading args (← o.addLetters .help .version a.toList.tail)

def ofArguments (args : List String) : Except Stop Invocation := leading args .none

def ofArguments? (args : List String) : Option Invocation := (ofArguments args).toOption

end Invocation

end Brokerage
