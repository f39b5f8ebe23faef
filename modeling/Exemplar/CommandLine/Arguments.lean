import Exemplar.Text.Basic

/-!
# Command line arguments

Options have a long name and perhaps a letter. A value follows its option as the next argument, or stands in
the same one: after `=` for a long name, after the letter with or without `=` for a short one. An option for
several values takes all arguments up to the next option, unless its value stands in the same argument, and
it may be repeated. An argument that starts with a dash and has more than the dash is never a value, except
after `--`, which ends the options.
-/

namespace Exemplar.CommandLine

inductive Arity
  | single
  | several
deriving DecidableEq, Repr

structure Setting where
  long : Text
  letter : Option Char
  arity : Arity
  required : Bool
  /-- Paths must not be empty. -/
  isPath : Bool
deriving DecidableEq, Repr

/-- One use of an option. -/
structure Use where
  setting : Setting
  values : List Text
deriving DecidableEq, Repr

structure Parsed where
  uses : List Use
  positionals : List Text
deriving DecidableEq, Repr

/-- Why arguments are not run: they are wrong, or they ask for help. -/
inductive Stop
  | usage
  | help
deriving DecidableEq, Repr

/-- An option that may take further values. -/
structure Pending where
  setting : Setting
  values : List Text
deriving DecidableEq, Repr

/-- Ends an option, which must have got a value. -/
def Pending.end? : Option Pending → Except Stop (List Use)
  | none => .ok []
  | some p => if p.values = [] then .error .usage else .ok [⟨p.setting, p.values⟩]

/-- An argument that names an option, with the value that stands in it. -/
structure Named where
  setting : Setting
  value : Option Text

def longOption (settings : List Setting) (body : Text) : Except Stop Named :=
  let name := body.takeWhile (· ≠ '=')
  let value := (body.dropWhile (· ≠ '=')).tail?
  match settings.find? (·.long = name) with
  | some setting => .ok ⟨setting, value⟩
  | none => .error (if name = "help".toList ∧ value = none then .help else .usage)

def shortOption (settings : List Setting) (letter : Char) (rest : Text) : Except Stop Named :=
  match settings.find? (·.letter = some letter) with
  | some setting =>
    .ok ⟨setting, match rest with
      | [] => none
      | '=' :: value => some value
      | value => some value⟩
  | none => .error (if letter = 'h' then .help else .usage)

/-- The option that an argument names, if it looks like one. -/
def named? (settings : List Setting) : Text → Option (Except Stop Named)
  | '-' :: '-' :: body => some (longOption settings body)
  | '-' :: letter :: rest => some (shortOption settings letter rest)
  | _ => none

def Parsed.add (p : Parsed) (uses : List Use) (positionals : List Text) : Parsed :=
  ⟨uses ++ p.uses, positionals ++ p.positionals⟩

/-- Reads arguments with an option perhaps pending. -/
def readFrom (settings : List Setting) : Option Pending → List Text → Except Stop Parsed
  | pending, [] => do pure ⟨← Pending.end? pending, []⟩
  | pending, argument :: rest =>
    if argument = ['-', '-'] then do pure ⟨← Pending.end? pending, rest⟩
    else
      match named? settings argument with
      | some option => do
        let ended ← Pending.end? pending
        let option ← option
        match option.value with
        | some value =>
          let parsed ← readFrom settings none rest
          pure (parsed.add (ended ++ [⟨option.setting, [value]⟩]) [])
        | none =>
          let parsed ← readFrom settings (some ⟨option.setting, []⟩) rest
          pure (parsed.add ended [])
      | none =>
        match pending with
        | some p => do
          let values := p.values ++ [argument]
          match p.setting.arity with
          | .several => readFrom settings (some ⟨p.setting, values⟩) rest
          | .single =>
            let parsed ← readFrom settings none rest
            pure (parsed.add [⟨p.setting, values⟩] [])
        | none => do
          let parsed ← readFrom settings none rest
          pure (parsed.add [] [argument])

def Parsed.values (p : Parsed) (setting : Setting) : List Text :=
  (p.uses.filter (·.setting = setting)).flatMap (·.values)

/-- Whether an option is used as often as it may be, and with values it admits. -/
def Parsed.respects (p : Parsed) (setting : Setting) : Bool :=
  let uses := p.uses.filter (·.setting = setting)
  (!setting.required || !uses.isEmpty) &&
    (setting.arity = .several || uses.length ≤ 1) &&
    !(setting.isPath && (p.values setting).any (·.isEmpty))

/-- Reads arguments and checks them against the settings. -/
def read (settings : List Setting) (arguments : List Text) : Except Stop Parsed := do
  let parsed ← readFrom settings none arguments
  if settings.all parsed.respects then pure parsed else throw .usage

end Exemplar.CommandLine
