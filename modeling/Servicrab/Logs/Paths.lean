import Mathlib.Data.Set.BooleanAlgebra
import Mathlib.Data.Set.Disjoint
import Mathlib.Order.CompletePartialOrder
import Servicrab.Config.Settings
import Servicrab.Core.Name

/-!
# The names of log files

The current file of a service is `<service>.log`, and its rotated files are `<service>.log.<n>`
(`config.rs`, `logs.rs`). A name may hold dots, digits and the text `log`, so that a service can be
called like the files of another one. Its own files have other names for all that: a current file
ends in a letter and a rotated one in a digit, and what follows the last dot of a rotated one are the
digits of its number.

## Main definitions

* `LogSettings.fileFor`, `LogSettings.rotatedFileFor`, `LogSettings.logFiles`, `rotatedPath`.
* `logPath`: the files of a service, by their number.

## Main results

* `logPath_injective`: the files of a service have different names.
* `LogSettings.disjoint_logFiles`: no service has a file of another one's name.
-/

namespace Servicrab

namespace LogSettings

variable (settings : LogSettings)

/-- Path of the active log file for `service`. -/
def fileFor (service : ServiceName) : String := Path.join settings.dir (service.raw ++ ".log")

/-- Path of the `n`-th rotated file for `service` (1 is the most recent). -/
def rotatedFileFor (service : ServiceName) (n : ℕ) : String :=
  Path.join settings.dir (service.raw ++ (".log." ++ toString n))

/-- The paths of the log files of `service`, the current one and the rotated ones. -/
def logFiles (service : ServiceName) : Set String :=
  {path | path = settings.fileFor service ∨ ∃ n, path = settings.rotatedFileFor service n}

end LogSettings

/-- `<path>.<n>` for rotated files. -/
def rotatedPath (path : String) (n : ℕ) : String := path ++ ("." ++ toString n)

/-- The current file at a path is its file `0`, and the rotated files are the others. -/
def logPath (path : String) (n : ℕ) : String := if n = 0 then path else rotatedPath path n

/-! ### Two files have two names -/

/-- What follows the last separator is determined, and so is what comes before it. -/
theorem append_cons_inj {α : Type} {a : α} {l l' r r' : List α} (hr : a ∉ r) (hr' : a ∉ r')
    (h : l ++ a :: r = l' ++ a :: r') : l = l' ∧ r = r' := by
  rcases List.append_eq_append_iff.mp h with ⟨m, rfl, hm⟩ | ⟨m, rfl, hm⟩
  · cases m with
    | nil => exact ⟨(List.append_nil l).symm, (List.cons.inj hm).2⟩
    | cons b m =>
      obtain ⟨rfl, rfl⟩ := List.cons.inj hm
      exact absurd (List.mem_append_right m List.mem_cons_self) hr
  · cases m with
    | nil => exact ⟨List.append_nil l', (List.cons.inj hm).2.symm⟩
    | cons b m =>
      obtain ⟨rfl, rfl⟩ := List.cons.inj hm
      exact absurd (List.mem_append_right m List.mem_cons_self) hr'

theorem toList_rotatedPath (path : String) (n : ℕ) :
    (rotatedPath path n).toList = path.toList ++ '.' :: Nat.toDigits 10 n := by
  simp [rotatedPath, Nat.toString_eq_repr, Nat.toList_repr]

theorem dot_notMem_toDigits (n : ℕ) : '.' ∉ Nat.toDigits 10 n := by
  intro hmem
  have hdigit := Nat.isDigit_of_mem_toDigits (by decide) (by decide) hmem
  exact absurd hdigit (by decide)

/-- A rotated file is told by its path and its number. -/
theorem rotatedPath_inj {path path' : String} {m n : ℕ}
    (h : rotatedPath path m = rotatedPath path' n) : path = path' ∧ m = n := by
  have hlist := congrArg String.toList h
  rw [toList_rotatedPath, toList_rotatedPath] at hlist
  obtain ⟨hpath, hdigits⟩ :=
    append_cons_inj (dot_notMem_toDigits m) (dot_notMem_toDigits n) hlist
  have hnumber := congrArg (fun digits => Nat.ofDigitChars 10 digits 0) hdigits
  simp only [Nat.ofDigitChars_ten_toDigits] at hnumber
  exact ⟨String.toList_inj.mp hpath, hnumber⟩

/-- A rotated file ends in a digit. -/
theorem isDigit_of_getLast?_rotatedPath {path : String} {n : ℕ} {ch : Char}
    (h : (rotatedPath path n).toList.getLast? = some ch) : ch.isDigit := by
  rw [toList_rotatedPath, List.getLast?_append, List.getLast?_cons,
    List.getLast?_eq_some_getLast Nat.toDigits_ne_nil] at h
  simp only [Option.getD_some, Option.some_or, Option.some.injEq] at h
  exact Nat.isDigit_of_mem_toDigits (by decide) (by decide) (h ▸ List.getLast_mem Nat.toDigits_ne_nil)

/-- The files of a service have different names. -/
theorem logPath_injective (path : String) : Function.Injective (logPath path) := by
  have hlonger : ∀ n, rotatedPath path n ≠ path := by
    intro n heq
    have hlength := congrArg (fun path => path.toList.length) heq
    simp [toList_rotatedPath] at hlength
  intro m n heq
  rw [logPath, logPath] at heq
  split_ifs at heq with hm hn hn
  · exact hm.trans hn.symm
  · exact absurd heq.symm (hlonger n)
  · exact absurd heq (hlonger m)
  · exact (rotatedPath_inj heq).2

/-! ### In the log directory -/

/-- What `Path::join` puts before a relative path. -/
def Path.front (dir : String) : String :=
  if dir.toList = [] ∨ dir.toList.getLast? = some '/' then dir else dir ++ "/"

theorem Path.join_eq_front {path : String} (h : isAbsolute path = false) (dir : String) :
    join dir path = front dir ++ path := by
  rw [join, front, if_neg (by simp [h])]
  split_ifs <;> rfl

/-- A path that begins with a service's name is relative. -/
theorem isAbsolute_append {name : String} {maxLen : ℕ} (h : NameRules maxLen name) (rest : String) :
    Path.isAbsolute (name ++ rest) = false := by
  obtain ⟨first, tail, hname, hfirst⟩ := h.head
  rw [Path.isAbsolute, String.toList_append, hname]
  simp only [List.cons_append, List.head?_cons, Option.some.injEq, decide_eq_false_iff_not]
  rintro rfl
  exact absurd hfirst (by decide)

namespace LogSettings

variable {settings : LogSettings} {service service' : ServiceName}

theorem toList_fileFor (h : NameRules 48 service.raw) : (settings.fileFor service).toList =
    (Path.front settings.dir).toList ++ (service.raw.toList ++ ['.', 'l', 'o', 'g']) := by
  rw [fileFor, Path.join_eq_front (isAbsolute_append h ".log")]
  simp

/-- The rotated files of the settings are those at the path of the current one. -/
theorem rotatedPath_fileFor (h : NameRules 48 service.raw) (n : ℕ) :
    rotatedPath (settings.fileFor service) n = settings.rotatedFileFor service n := by
  rw [rotatedFileFor, Path.join_eq_front (isAbsolute_append h _), ← String.toList_inj,
    toList_rotatedPath, toList_fileFor h]
  simp [Nat.toString_eq_repr, Nat.toList_repr]

/-- A current file ends in a letter. -/
theorem getLast?_fileFor (h : NameRules 48 service.raw) :
    (settings.fileFor service).toList.getLast? = some 'g' := by
  rw [toList_fileFor h]
  simp

theorem fileFor_inj (h : NameRules 48 service.raw) (h' : NameRules 48 service'.raw)
    (heq : settings.fileFor service = settings.fileFor service') : service = service' := by
  have hlist := congrArg String.toList heq
  rw [toList_fileFor h, toList_fileFor h', List.append_cancel_left_eq,
    List.append_cancel_right_eq, String.toList_inj] at hlist
  obtain ⟨raw⟩ := service
  obtain ⟨raw'⟩ := service'
  exact congrArg ServiceName.mk hlist

theorem fileFor_ne_rotatedPath (h : NameRules 48 service.raw) (n : ℕ) :
    settings.fileFor service ≠ rotatedPath (settings.fileFor service') n := by
  intro heq
  have hlast := heq ▸ getLast?_fileFor h
  exact absurd (isDigit_of_getLast?_rotatedPath hlast) (by decide)

/-- **No service has a file of another one's name.** -/
theorem disjoint_logFiles (h : NameRules 48 service.raw) (h' : NameRules 48 service'.raw)
    (hne : service ≠ service') : Disjoint (settings.logFiles service) (settings.logFiles service') := by
  rw [Set.disjoint_left]
  rintro path (rfl | ⟨m, rfl⟩) (heq | ⟨n, heq⟩)
  · exact hne (fileFor_inj h h' heq)
  · exact fileFor_ne_rotatedPath h n (heq.trans (rotatedPath_fileFor h' n).symm)
  · exact fileFor_ne_rotatedPath h' m (heq.symm.trans (rotatedPath_fileFor h m).symm)
  · rw [← rotatedPath_fileFor h, ← rotatedPath_fileFor h'] at heq
    exact hne (fileFor_inj h h' (rotatedPath_inj heq).1)

theorem logPath_mem_logFiles (h : NameRules 48 service.raw) (n : ℕ) :
    logPath (settings.fileFor service) n ∈ settings.logFiles service := by
  rw [logPath]
  split_ifs
  · exact .inl rfl
  · exact .inr ⟨n, rotatedPath_fileFor h n⟩

end LogSettings

end Servicrab
