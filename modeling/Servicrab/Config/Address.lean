import Mathlib.Data.List.TakeDrop
import Mathlib.Order.Interval.Set.Basic
import Servicrab.Config.Health

/-!
# Probe addresses

The addresses that a probe may be given (`validation.rs`): a host, which is a name or an IPv6 literal
in brackets, with a port, and for an HTTP probe possibly with a path.

What is put together from these parts is cut into them again: the separators occur in no part that is
looked through for them. The exception is a URL with a literal and no port. It has a colon, and so it
is taken for a host with a port, and refused as one.

## Main definitions

* `ProbeHost`, `ProbeUrl`: the parts of an address.
* `ProbeUrl.Parses`: the address is read as the parts that it was put together from.

## Main results

* `parseHostPort_withPort`: a host and a port are always read back.
* `ProbeUrl.parses_iff`.
-/

namespace Servicrab

/-- A host: a name or an IPv4 address, or an IPv6 literal, which stands in brackets. -/
structure ProbeHost where
  text : List Char
  bracketed : Bool
  ne_nil : text ≠ []
  plain : ∀ c ∈ text, c ∉ ['/', '@', '[', ']']
  colon : ':' ∈ text → bracketed

/-- A port number. -/
abbrev ProbePort := Set.Icc 1 65535

/-- The parts of a URL. The port and the path may be left out. -/
structure ProbeUrl where
  host : ProbeHost
  port : Option ProbePort
  path : Option { path : List Char // path.head? = some '/' }

namespace ProbeHost

/-- The host as it is written. -/
def render (host : ProbeHost) : List Char :=
  if host.bracketed then '[' :: host.text ++ [']'] else host.text

/-- `host:port`. -/
def withPort (host : ProbeHost) (port : ProbePort) : List Char :=
  host.render ++ ':' :: Nat.toDigits 10 port

variable (host : ProbeHost)

theorem notMem_text : '/' ∉ host.text ∧ '@' ∉ host.text ∧ '[' ∉ host.text ∧ ']' ∉ host.text := by
  refine ⟨fun h => ?_, fun h => ?_, fun h => ?_, fun h => ?_⟩ <;> simpa using host.plain _ h

theorem notMem_render : '/' ∉ host.render ∧ '@' ∉ host.render := by
  obtain ⟨hslash, hat, -, -⟩ := host.notMem_text
  unfold render
  split_ifs <;> simp [hslash, hat]

end ProbeHost

namespace ProbeUrl

variable (url : ProbeUrl)

/-- What stands before the path. -/
def authority : List Char := url.port.elim url.host.render url.host.withPort

/-- The URL as it is written. -/
def text : String :=
  String.ofList ("http://".toList ++ (url.authority ++ (url.path.elim [] Subtype.val)))

/-- The probe that the URL stands for. -/
def probe : HealthProbe :=
  .http url.text (String.ofList url.host.text) (url.port.elim 80 Subtype.val)
    (String.ofList (url.path.elim ['/'] Subtype.val))

/-- The URL is read as its parts, and so is its host with any port. -/
def Parses : Prop :=
  parseHttpUrl url.text = .ok url.probe ∧
    ∀ port : ProbePort, parseHostPort (url.host.withPort port) =
      .ok (String.ofList url.host.text, port)

end ProbeUrl

/-! ### A host and a port -/

theorem notMem_toDigits {c : Char} {n : ℕ} (h : ¬c.isDigit) : c ∉ Nat.toDigits 10 n :=
  fun hmem => h (Nat.isDigit_of_mem_toDigits (by decide) (by decide) hmem)

theorem splitHostPort_withPort (host : ProbeHost) (port : ProbePort) :
    splitHostPort (host.withPort port) = .ok (host.text, Nat.toDigits 10 port) := by
  obtain ⟨-, -, hopen, hclose⟩ := host.notMem_text
  cases hbracketed : host.bracketed with
  | true =>
    have htext : host.withPort port =
        '[' :: (host.text ++ ']' :: (':' :: Nat.toDigits 10 port)) := by
      simp [ProbeHost.withPort, ProbeHost.render, hbracketed]
    simp [splitHostPort, htext, Text.splitOnce_singleton hclose]
  | false =>
    have hstart : '[' ∉ host.text ++ ':' :: Nat.toDigits 10 port := by
      simp [hopen, notMem_toDigits (c := '[') (by decide)]
    have hdigits : ':' ∉ Nat.toDigits 10 port := notMem_toDigits (by decide)
    simp [splitHostPort, ProbeHost.withPort, ProbeHost.render, hbracketed,
      Text.stripPrefix_singleton_eq_none hstart, Text.rsplitOnce_append hdigits]

/-- **A host and a port** are read back. -/
theorem parseHostPort_withPort (host : ProbeHost) (port : ProbePort) :
    parseHostPort (host.withPort port) = .ok (String.ofList host.text, port) := by
  obtain ⟨n, hpos, hle⟩ := port
  have hport : Text.parseU16 (Nat.toDigits 10 n) = some n := Text.parseU16_toDigits (by omega)
  rw [parseHostPort, splitHostPort_withPort]
  obtain ⟨n, rfl⟩ := Nat.exists_eq_add_of_le' hpos
  simp only [bind, Except.bind, if_neg host.ne_nil, hport]
  rfl

/-- A host without a port is not taken for one with a port. -/
theorem parseHostPort_render (host : ProbeHost) :
    parseHostPort host.render =
      .error (if host.bracketed then "expected `[host]:port`" else "expected `host:port`") := by
  obtain ⟨-, -, hopen, hclose⟩ := host.notMem_text
  cases hbracketed : host.bracketed with
  | true =>
    have htext : host.render = '[' :: (host.text ++ ']' :: []) := by
      simp [ProbeHost.render, hbracketed]
    have hnone : Text.stripPrefix [':'] [] = none := rfl
    simp [parseHostPort, splitHostPort, htext, Text.splitOnce_singleton hclose, hnone, bind,
      Except.bind]
  | false =>
    have hcolon : ':' ∉ host.text := fun h => absurd (host.colon h) (by simp [hbracketed])
    simp [parseHostPort, splitHostPort, ProbeHost.render, hbracketed,
      Text.stripPrefix_singleton_eq_none hopen, Text.rsplitOnce_eq_none hcolon, bind, Except.bind]

/-! ### URLs -/

namespace ProbeUrl

variable (url : ProbeUrl)

theorem notMem_authority : '/' ∉ url.authority ∧ '@' ∉ url.authority := by
  obtain ⟨hslash, hat⟩ := url.host.notMem_render
  unfold authority
  cases url.port with
  | none => exact ⟨hslash, hat⟩
  | some port =>
    simp [ProbeHost.withPort, hslash, hat, notMem_toDigits (c := '/') (by decide),
      notMem_toDigits (c := '@') (by decide)]

/-- A URL is cut in two where its path begins. -/
theorem span_authority : (url.authority ++ url.path.elim [] Subtype.val).span (· != '/') =
    (url.authority, url.path.elim [] Subtype.val) := by
  have hauthority : ∀ c ∈ url.authority, (c != '/') = true := fun c hc =>
    bne_iff_ne.mpr fun h => url.notMem_authority.1 (h ▸ hc)
  rw [List.span_eq_takeWhile_dropWhile, List.takeWhile_append_of_pos hauthority,
    List.dropWhile_append_of_pos hauthority]
  cases url.path with
  | none => simp
  | some path =>
    obtain ⟨path, hpath⟩ := path
    obtain ⟨rest, rfl⟩ := List.head?_eq_some_iff.mp hpath
    simp

/-- How a URL is read, once it is cut in two. -/
theorem parseHttpUrl_text : parseHttpUrl url.text =
    let path := String.ofList (url.path.elim ['/'] Subtype.val)
    match parseHostPort url.authority with
    | .ok (host, port) => .ok (.http url.text host port path)
    | .error reason =>
      if ':' ∈ url.authority then .error reason
      else if url.authority = [] then .error "the URL has no host"
      else .ok (.http url.text (String.ofList url.authority) 80 path) := by
  have hpath : (if url.path.elim [] Subtype.val = [] then "/"
      else String.ofList (url.path.elim [] Subtype.val)) =
        String.ofList (url.path.elim ['/'] Subtype.val) := by
    cases url.path with
    | none => rfl
    | some path =>
      have hne : path.val ≠ [] := fun hnil => by simpa [hnil] using path.property
      exact if_neg hne
  have htext : url.text.toList =
      "http://".toList ++ (url.authority ++ url.path.elim [] Subtype.val) := String.toList_ofList
  rw [parseHttpUrl, htext, Text.stripPrefix_append]
  simp only [span_authority, hpath]
  exact if_neg url.notMem_authority.2

/-- **The URLs that are read as their parts** are those in which a literal comes with a port. -/
theorem parses_iff : url.Parses ↔ (url.host.bracketed → url.port.isSome) := by
  have hports : ∀ port : ProbePort, parseHostPort (url.host.withPort port) =
      .ok (String.ofList url.host.text, port) := parseHostPort_withPort url.host
  have hparses : url.Parses ↔ parseHttpUrl url.text = .ok url.probe := and_iff_left hports
  rw [hparses, parseHttpUrl_text, probe]
  cases hport : url.port with
  | some port => simp [authority, hport, hports port]
  | none =>
    simp only [authority, hport, Option.elim_none, parseHostPort_render]
    cases hbracketed : url.host.bracketed with
    | false =>
      have hcolon : ':' ∉ url.host.text := fun h => by simpa [hbracketed] using url.host.colon h
      simp [ProbeHost.render, hbracketed, hcolon, url.host.ne_nil]
    | true =>
      -- the host is taken with its brackets, or not at all
      have hhost : String.ofList url.host.render ≠ String.ofList url.host.text := by
        intro h
        have hlength := congrArg List.length (String.ofList_injective h)
        simp only [ProbeHost.render, hbracketed, if_true, List.length_append, List.length_cons,
          List.length_nil] at hlength
        omega
      split_ifs <;> simp [hhost]

/-- `http://[::1]`. -/
def loopback : ProbeUrl where
  host := ⟨"::1".toList, true, by simp, by simp, fun _ => rfl⟩
  port := none
  path := none

theorem not_parses_loopback : ¬∀ url : ProbeUrl, url.Parses := by
  intro h
  have hrefused : parseHttpUrl "http://[::1]" = .error "expected `[host]:port`" := by decide
  have haccepted : parseHttpUrl loopback.text = .ok loopback.probe := (h loopback).1
  have htext : loopback.text = "http://[::1]" := by decide
  rw [htext, hrefused] at haccepted
  cases haccepted

end ProbeUrl

end Servicrab
