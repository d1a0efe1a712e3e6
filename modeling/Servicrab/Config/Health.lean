import Servicrab.Config.Fields

/-!
# Health checks

The table `[services.<name>.health]` (`validation.rs`). It declares one probe: a command, a URL or
an address.

## Main definitions

* `parseHostPort`, `parseHttpUrl`, `buildProbe`.
* `validateHealth`.
* `HealthCheck.InRange`: the durations and the retries that are accepted.

## Main results

* `inRange_of_validateHealth`: a health check is in range.
* `isSome_validateHealth`: a table is not left out without an error.
-/

namespace Servicrab

open Checked (report skip)

/-! ### Probes -/

/-- The host and the port of an address, as they are written. -/
def splitHostPort (addr : List Char) : Except String (List Char × List Char) :=
  match Text.stripPrefix ['['] addr with
  | some rest =>
    match Text.splitOnce [']'] rest with
    | none => .error "unterminated IPv6 literal"
    | some (host, rest) =>
      match Text.stripPrefix [':'] rest with
      | some port => .ok (host, port)
      | none => .error "expected `[host]:port`"
  | none =>
    match Text.rsplitOnce ':' addr with
    | some halves => .ok halves
    | none => .error "expected `host:port`"

/-- Parse a `host:port` pair, where the host may be an IPv6 literal in brackets. -/
def parseHostPort (addr : List Char) : Except String (String × ℕ) := do
  let (host, port) ← splitHostPort addr
  if host = [] then .error "the host must not be empty"
  else
    match Text.parseU16 port with
    | none => .error s!"{Debug.str (String.ofList port)} is not a valid port number"
    | some 0 => .error "the port must not be zero"
    | some port => return (String.ofList host, port)

/-- Parse an `http://host[:port][/path]` URL into a probe. -/
def parseHttpUrl (url : String) : Except String HealthProbe :=
  match Text.stripPrefix "http://".toList url.toList with
  | none =>
    match Text.splitOnce "://".toList url.toList with
    | some (['h', 't', 't', 'p', 's'], _) =>
      .error "https is not supported; use a `command` probe such as `curl -fsS <url>`"
    | _ => .error "the URL must start with `http://`"
  | some rest =>
    let (authority, tail) := rest.span (· != '/')
    let path := if tail = [] then "/" else String.ofList tail
    if '@' ∈ authority then .error "credentials in the URL are not supported"
    else
      match parseHostPort authority with
      | .ok (host, port) => .ok (.http url host port path)
      | .error reason =>
        if ':' ∈ authority then .error reason
        else if authority = [] then .error "the URL has no host"
        else .ok (.http url (String.ofList authority) 80 path)

/-- Build the probe that was declared. -/
def buildProbe (raw : RawHealthCheck) (service : String) : Validation (Option HealthProbe) :=
  let invalid := ConfigError.invalidHealthProbe service
  match raw.command, raw.http, raw.tcp with
  | some [], _, _ => skip (invalid "command" "" "the command must not be empty")
  | some (executable :: args), _, _ =>
    if executable = "" ∨ (executable :: args).any ('\x00' ∈ ·.toList) then
      skip (invalid "command" executable
        "the executable must not be empty and no argument may contain a NUL byte")
    else pure (some (.command executable args))
  | none, some url, _ =>
    match parseHttpUrl url with
    | .ok probe => pure (some probe)
    | .error reason => skip (invalid "http" url reason)
  | none, none, some addr =>
    match parseHostPort addr.toList with
    | .ok (host, port) => pure (some (.tcp host port))
    | .error reason => skip (invalid "tcp" addr reason)
  | none, none, none => pure none

/-! ### The table -/

/-- The probes that are declared. -/
def declaredProbes (raw : RawHealthCheck) : List String :=
  (if raw.command.isSome then ["command"] else []) ++
    (if raw.http.isSome then ["http"] else []) ++ (if raw.tcp.isSome then ["tcp"] else [])

def validateProbe (raw : RawHealthCheck) (service : String) : Validation (Option HealthProbe) :=
  match declaredProbes raw with
  | [] => skip (.missingHealthProbe service)
  | [_] => buildProbe raw service
  | declared => skip (.conflictingHealthProbes service (", ".intercalate declared))

def validateOnUnhealthy (raw : Option String) (service : String) : Validation UnhealthyAction :=
  match raw with
  | none | some "restart" => pure .restart
  | some "ignore" => pure .ignore
  | some other => do
    report (.invalidUnhealthyAction service other)
    return .restart

/-- How many failures in a row make a service unhealthy. -/
def validateRetries (raw : Option ℕ) (service : String) : Validation ℕ :=
  match raw with
  | some 0 => do
    report (.invalidHealthRetries service)
    return 1
  | some retries => pure retries
  | none => pure 3

/-- Validate a `[services.<name>.health]` table. A table that is unusable gives nothing, with an
error. -/
def validateHealth (host : Host) (raw : RawHealthCheck) (service : String) :
    Validation (Option HealthCheck) := do
  let probe ← validateProbe raw service
  let interval ← parseDurationField host raw.interval "health.interval" (.ofSecs 2) service
    dur100ms dur1h
  let timeout ← parseDurationField host raw.timeout "health.timeout" (.ofSecs 5) service
    dur100ms dur1h
  let startPeriod ← parseDurationField host raw.startPeriod "health.start_period" 0 service 0 dur24h
  let onUnhealthy ← validateOnUnhealthy raw.onUnhealthy service
  let retries ← validateRetries raw.retries service
  return probe.map fun probe => { probe, interval, timeout, retries, startPeriod, onUnhealthy }

/-- The durations and the retries are in the ranges that are accepted. -/
structure HealthCheck.InRange (check : HealthCheck) : Prop where
  interval : check.interval ∈ Set.Icc dur100ms dur1h
  timeout : check.timeout ∈ Set.Icc dur100ms dur1h
  startPeriod : check.startPeriod ∈ Set.Icc 0 dur24h
  retries : 1 ≤ check.retries

variable {host : Host} {raw : RawHealthCheck} {service : String}

theorem one_le_validateRetries (raw : Option ℕ) (service : String) :
    1 ≤ (validateRetries raw service).value := by
  unfold validateRetries
  split
  · exact le_refl 1
  · rename_i retries hretries
    exact Nat.one_le_iff_ne_zero.mpr hretries
  · show 1 ≤ 3
    omega

/-- A health check is in range. -/
theorem inRange_of_validateHealth {check : HealthCheck}
    (h : (validateHealth host raw service).value = some check) : check.InRange := by
  have hinterval : Duration.ofSecs 2 ∈ Set.Icc dur100ms dur1h := ⟨by decide, by decide⟩
  have htimeout : Duration.ofSecs 5 ∈ Set.Icc dur100ms dur1h := ⟨by decide, by decide⟩
  have hstart : (0 : Duration) ∈ Set.Icc 0 dur24h := ⟨le_refl 0, Nat.zero_le _⟩
  obtain ⟨probe, -, rfl⟩ := Option.map_eq_some_iff.mp h
  exact {
    interval := parseDurationField_mem hinterval
    timeout := parseDurationField_mem htimeout
    startPeriod := parseDurationField_mem hstart
    retries := one_le_validateRetries raw.retries service }

/-- A probe that is declared is built, or there is an error. -/
theorem isSome_buildProbe (hdeclared : declaredProbes raw ≠ [])
    (h : (buildProbe raw service).Clean) : (buildProbe raw service).value.isSome := by
  unfold buildProbe at h ⊢
  split at h
  · exact absurd h (Checked.not_clean_skip _)
  · split_ifs at h ⊢
    · exact absurd h (Checked.not_clean_skip _)
    · rfl
  · split at h
    · rfl
    · exact absurd h (Checked.not_clean_skip _)
  · split at h
    · rfl
    · exact absurd h (Checked.not_clean_skip _)
  · rename_i hcommand hhttp htcp
    simp [declaredProbes, hcommand, hhttp, htcp] at hdeclared

theorem isSome_validateProbe (h : (validateProbe raw service).Clean) :
    (validateProbe raw service).value.isSome := by
  unfold validateProbe at h ⊢
  split at h
  · exact absurd h (Checked.not_clean_skip _)
  · rename_i declared hdeclared
    exact isSome_buildProbe (by rw [hdeclared]; exact List.cons_ne_nil _ _) h
  · exact absurd h (Checked.not_clean_skip _)

/-- A table is not left out without an error. -/
theorem isSome_validateHealth (h : (validateHealth host raw service).Clean) :
    (validateHealth host raw service).value.isSome := by
  have hprobe : (validateProbe raw service).Clean := (Checked.clean_bind.mp h).1
  have hvalue : (validateHealth host raw service).value.isSome =
      (validateProbe raw service).value.isSome := Option.isSome_map
  rw [hvalue]
  exact isSome_validateProbe hprobe

end Servicrab
