import Exemplar.Batch.Config
import Exemplar.CommandLine.Arguments
import Exemplar.Files.Glob

/-!
# Commands

The three commands with their options.
-/

namespace Exemplar.CommandLine

open Batch (ExtractConfig GenerateConfig ShowConfig)

inductive Command
  | extract (config : ExtractConfig)
  | generate (config : GenerateConfig)
  | display (config : ShowConfig)
deriving DecidableEq, Repr

/-- Paths at or below which a command reads and writes. -/
def Command.paths : Command → List Text
  | extract c => c.outputDirectory :: c.sources.map Glob.fixedPart
  | generate c => c.outputDirectory :: c.extractTo.toList ++ c.models
  | display c => [c.samplesDirectory]

def source : Setting := ⟨"source".toList, some 's', .several, true, false⟩

def extension : Setting := ⟨"extension".toList, some 'e', .single, false, false⟩

def output : Setting := ⟨"output".toList, some 'o', .single, true, true⟩

def commentMarker : Setting := ⟨"comment-marker".toList, none, .single, false, false⟩

def model : Setting := ⟨"model".toList, some 'm', .several, true, true⟩

def extractTo : Setting := ⟨"extract-to".toList, none, .single, false, true⟩

def samplesDirectory : Setting := ⟨"samples-dir".toList, some 'd', .single, true, true⟩

def format : Setting := ⟨"format".toList, some 'f', .single, false, false⟩

/-- The value of an option that takes one. -/
def Parsed.value? (p : Parsed) (setting : Setting) : Option Text := (p.values setting).head?

def extractCommand (arguments : List Text) : Except Stop Command := do
  let p ← read [source, extension, output, commentMarker] arguments
  if p.positionals ≠ [] then throw .usage
  pure (.extract {
    sources := p.values source
    extension := (p.value? extension).getD "java".toList
    outputDirectory := (p.value? output).getD []
    commentMarker := (p.value? commentMarker).getD "//".toList })

def generateCommand (arguments : List Text) : Except Stop Command := do
  let p ← read [model, output, extractTo] arguments
  if p.positionals ≠ [] then throw .usage
  pure (.generate {
    models := p.values model
    outputDirectory := (p.value? output).getD []
    extractTo := p.value? extractTo })

def displayCommand (arguments : List Text) : Except Stop Command := do
  let p ← read [samplesDirectory, format] arguments
  if p.positionals = [] then throw .usage
  pure (.display {
    samplesDirectory := (p.value? samplesDirectory).getD []
    references := p.positionals
    format := (p.value? format).getD "html".toList })

def commandNamed? (name : Text) : Option (List Text → Except Stop Command) :=
  if name = "extract".toList then some extractCommand
  else if name = "generate".toList then some generateCommand
  else if name = "show".toList then some displayCommand
  else none

/-- The command that arguments ask for. -/
def Command.ofArguments : List Text → Except Stop Command
  | [] => .error .usage
  | name :: arguments =>
    match commandNamed? name with
    | some command => command arguments
    | none =>
      if name = "help".toList then
        if arguments.all fun topic => (commandNamed? topic).isSome then .error .help
        else .error .usage
      else if name = "--help".toList ∨ name.take 2 = "-h".toList then .error .help
      else .error .usage

end Exemplar.CommandLine
