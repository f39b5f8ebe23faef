import Exemplar.Fault

/-!
# Batch configurations
-/

namespace Exemplar.Batch

structure ExtractConfig where
  sources : List Text
  /-- Of the files picked up in directories, with or without dots before it. -/
  extension : Text
  outputDirectory : Text
  commentMarker : Text
deriving DecidableEq, Repr

def ExtractConfig.bareExtension (c : ExtractConfig) : Text := c.extension.dropWhile (· = '.')

def ExtractConfig.validate (c : ExtractConfig) : Except Fault Unit :=
  if c.sources = [] ∨ c.sources.any (·.trim = []) then
    refuseAbsent "Source directories must be provided"
  else if c.bareExtension = [] then refuseAbsent "File extension must be provided"
  else if c.outputDirectory = [] then refuseAbsent "Output directory must be provided"
  else if c.commentMarker.trim = [] then refuseAbsent "Comment marker must be provided"
  else .ok ()

structure GenerateConfig where
  models : List Text
  outputDirectory : Text
  /-- Where to extract the generated classes to, if at all. -/
  extractTo : Option Text
deriving DecidableEq, Repr

def GenerateConfig.validate (c : GenerateConfig) : Except Fault Unit :=
  if c.models = [] then refuseAbsent "At least one service model must be provided"
  else if c.outputDirectory = [] then refuseAbsent "Output directory must be provided"
  else if c.extractTo = some [] then refuseAbsent "Extraction directory must not be empty"
  else .ok ()

structure ShowConfig where
  samplesDirectory : Text
  references : List Text
  format : Text
deriving DecidableEq, Repr

def ShowConfig.validate (c : ShowConfig) : Except Fault Unit :=
  if c.samplesDirectory = [] then refuseAbsent "Sample directory must be provided"
  else if c.references = [] then refuseAbsent "At least one sample reference must be provided"
  else .ok ()

end Exemplar.Batch
