import Servicrab.Config.Substitution
import Servicrab.Core.Error

/-!
# What the validation asks of its host

The environment of the process, its file system, and the parser of durations, which is a package
that is not part of the repository.

## Main definitions

* `Host`.
-/

namespace Servicrab

/-- What the validation reads besides the configuration. -/
structure Host where
  /-- `std::env::vars`. -/
  vars : Vars
  /-- `humantime::parse_duration`, with the text of its error. -/
  parseDuration : String → Except String Duration
  /-- `Path::canonicalize`, with the text of its error. -/
  canonicalize : String → Except String String
  /-- `Path::exists`. -/
  pathExists : String → Bool
  /-- `Path::is_dir`. -/
  isDir : String → Bool
  /-- `Path::is_file`. -/
  isFile : String → Bool
  /-- `std::fs::read_to_string`, with the text of its error. -/
  readToString : String → Except String String

end Servicrab
