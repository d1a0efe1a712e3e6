import Servicrab.Daemon.Connection

/-!
# The connections of a daemon

`accept_loop` (`server.rs`) gives each connection one of a fixed number of places, and turns the
newest away when there is none. Clients come, and the connections take their steps, in any order.

## Main definitions

* `Acceptor`, `acceptorSystem`: the places, and the connections that got one.

## Main results

* `Acceptor.accounts_of_reachable`: places are counted, and what is done with one connection does not
  depend on the others.
* `Acceptor.places_come_back`: only a client of the same user keeps its place.
-/

open TransitionSystem (AnyStep)

namespace Servicrab

namespace Server

/-- How many clients may be connected at once. -/
def maxConnections : ℕ := 64

/-- The places of a daemon, and the connections that got one. -/
structure Acceptor where
  permits : ℕ
  /-- It waits after a failure to accept. -/
  backingOff : Bool
  /-- In the order in which they were accepted. -/
  connections : List Connection
  turnedAway : ℕ

/-- What happens around a daemon. -/
inductive AcceptorAction
  | accept (peer : Except String ℕ)
  | acceptFails
  /-- The wait is over. -/
  | resume
  | connection (i : ℕ) (action : ConnectionAction)

/-- The task of a connection takes it without the client. -/
def AcceptorAction.isOwn : AcceptorAction → Bool
  | .connection _ action => action.isOwn
  | _ => false

namespace Acceptor

variable (env : ℕ → Environment) (ours : ℕ) (s : Acceptor)

def initial : Acceptor where
  permits := maxConnections
  backingOff := false
  connections := []
  turnedAway := 0

/-- The connections that hold a place. -/
def live : ℕ := s.connections.countP Connection.isLive

/-- One round of `accept_loop`, or one step on a connection. -/
def step : AcceptorAction → Option Acceptor
  | .accept peer =>
    if s.backingOff then none
    else if s.permits = 0 then some { s with turnedAway := s.turnedAway + 1 }
    else some { s with
      permits := s.permits - 1, connections := s.connections ++ [.new peer] }
  | .acceptFails => if s.backingOff then none else some { s with backingOff := true }
  | .resume => if s.backingOff then some { s with backingOff := false } else none
  | .connection i action =>
    s.connections[i]?.bind fun c => (c.step (env i) ours action).map fun c' =>
      { s with
        -- The place is given back when the task is done.
        permits := if c'.isLive then s.permits else s.permits + 1
        connections := s.connections.set i c' }

end Acceptor

/-- The connections of a daemon, with what each is answered, that runs as a user. -/
def acceptorSystem (env : ℕ → Environment) (ours : ℕ) : TransitionSystem Acceptor AcceptorAction where
  init s := s = .initial
  step s := s.step env ours

namespace Acceptor

variable {env : ℕ → Environment} {ours : ℕ} {s s' : Acceptor} {c c' : Connection} {i : ℕ}

/-- Every connection that was accepted holds one of the places until it is over, and has its
account. -/
structure Inv (env : ℕ → Environment) (ours : ℕ) (s : Acceptor) : Prop where
  places : s.permits + s.live = maxConnections
  account : ∀ (i : ℕ) (c : Connection), s.connections[i]? = some c → c.Account (env i) ours

theorem step_connection {action : ConnectionAction}
    (hstep : s.step env ours (.connection i action) = some s') :
    ∃ c c', s.connections[i]? = some c ∧ c.step (env i) ours action = some c' ∧
      s'.permits = (if c'.isLive then s.permits else s.permits + 1) ∧
      s'.connections = s.connections.set i c' := by
  obtain ⟨c, hc, hstep⟩ := Option.bind_eq_some_iff.mp hstep
  obtain ⟨c', hc', rfl⟩ := Option.map_eq_some_iff.mp hstep
  exact ⟨c, c', hc, hc', rfl, rfl⟩

theorem getElem?_set_cases {connections : List Connection} {j : ℕ} {other : Connection}
    (hother : (connections.set i c')[j]? = some other) :
    i = j ∧ other = c' ∨ i ≠ j ∧ connections[j]? = some other := by
  rw [List.getElem?_set] at hother
  split_ifs at hother with hij hlt
  · exact .inl ⟨hij, (Option.some.inj hother).symm⟩
  · exact .inr ⟨hij, hother⟩

theorem Inv.connection (h : s.Inv env ours) {action : ConnectionAction}
    (hstep : s.step env ours (.connection i action) = some s') : s'.Inv env ours := by
  obtain ⟨c, c', hc, hc', hpermits, hconnections⟩ := step_connection hstep
  obtain ⟨hi, hget⟩ := List.getElem?_eq_some_iff.mp hc
  constructor
  · have hlive := Connection.isLive_of_step hc'
    have hpositive : 0 < s.connections.countP Connection.isLive :=
      List.countP_pos_iff.mpr ⟨c, List.mem_of_getElem? hc, hlive⟩
    have hplaces := h.places
    rw [live] at hplaces ⊢
    rw [hpermits, hconnections, List.countP_set hi, hget, if_pos hlive]
    split_ifs <;> omega
  · intro j other hother
    rw [hconnections] at hother
    obtain ⟨rfl, rfl⟩ | ⟨-, hother⟩ := getElem?_set_cases hother
    · exact (h.account i c hc).step hc'
    · exact h.account j other hother

theorem Inv.step (h : s.Inv env ours) {action : AcceptorAction}
    (hstep : s.step env ours action = some s') : s'.Inv env ours := by
  cases action with
  | accept peer =>
    rw [Acceptor.step] at hstep
    split_ifs at hstep with hbusy hfull
    · obtain rfl := Option.some.inj hstep
      exact ⟨h.places, h.account⟩
    · obtain rfl := Option.some.inj hstep
      constructor
      · have hplaces := h.places
        rw [live] at hplaces ⊢
        rw [List.countP_append]
        show s.permits - 1 + (_ + 1) = _
        omega
      · intro i c hc
        rw [List.getElem?_append, List.getElem?_singleton] at hc
        split_ifs at hc
        · exact h.account i c hc
        · exact Option.some.inj hc ▸ Connection.account_new _ ours peer
  | acceptFails =>
    rw [Acceptor.step] at hstep
    split_ifs at hstep
    obtain rfl := Option.some.inj hstep
    exact ⟨h.places, h.account⟩
  | resume =>
    obtain ⟨-, hstep⟩ := Option.ite_none_right_eq_some.mp hstep
    obtain rfl := Option.some.inj hstep
    exact ⟨h.places, h.account⟩
  | connection i action => exact h.connection hstep

theorem inv_of_reachable (h : (acceptorSystem env ours).Reachable AnyStep s) : s.Inv env ours := by
  refine h.invariant ?_ fun _ hI _ hstep => hI.step hstep
  rintro s₀ rfl
  exact ⟨rfl, nofun⟩

/-- A connection that comes when there is a place gets it, and only the newest is turned away when
there is none. -/
theorem Inv.accept (h : s.Inv env ours) (hbusy : s.backingOff = false) (peer : Except String ℕ) :
    ∃ s', s.step env ours (.accept peer) = some s' ∧
      if s.live < maxConnections then
        s'.connections = s.connections ++ [.new peer] ∧ s'.turnedAway = s.turnedAway
      else s'.connections = s.connections ∧ s'.turnedAway = s.turnedAway + 1 := by
  have hplaces := h.places
  rw [Acceptor.step, hbusy, if_neg Bool.false_ne_true]
  split_ifs with hfull hroom
  · omega
  · exact ⟨_, rfl, rfl, rfl⟩
  · exact ⟨_, rfl, rfl, rfl⟩
  · omega

/-- **The connections of a daemon.** Whatever clients come, send and do, in any order: the places that
are free and the connections that are not over make up all places, and a connection is turned away
only when all are taken. Nothing of a stranger is read as a request, and it is told at most why. On
every other connection the lines are served as if it were alone: each is answered in its turn, and
when it is over it has followed the rules of a connection. -/
theorem accounts_of_reachable (env : ℕ → Environment) (ours : ℕ) (s : Acceptor)
    (h : (acceptorSystem env ours).Reachable AnyStep s) :
    s.permits + s.live = maxConnections ∧
    (s.backingOff = false → ∀ peer, ∃ s', s.step env ours (.accept peer) = some s' ∧
      if s.live < maxConnections then
        s'.connections = s.connections ++ [.new peer] ∧ s'.turnedAway = s.turnedAway
      else s'.connections = s.connections ∧ s'.turnedAway = s.turnedAway + 1) ∧
    ∀ (i : ℕ) (c : Connection), s.connections[i]? = some c → c.Account (env i) ours ∧
      (c.peer ≠ .ok ours → c.served = [] ∧ c.decoded = [] ∧
        ∃ message, refusal ours c.peer = some message ∧
          (c.sent = [] ∨ c.sent = [failure message])) ∧
      ∀ ending, c.phase = .finished (.ended ending) → ending ≠ .idle →
        Follows (env i) 0 (sinceUsable (env i)) c.received ⟨c.decoded, c.sent, ending⟩ c.served := by
  have hI := inv_of_reachable h
  refine ⟨hI.places, hI.accept, fun i c hc => ?_⟩
  have haccount := hI.account i c hc
  exact ⟨haccount, haccount.stranger, fun ending => haccount.follows⟩

/-- A daemon that can do nothing with any request. -/
def quietEnvironment : Environment := ⟨Json.compact, fun _ => "invalid", fun _ _ _ => failure ""⟩

/-- A stranger is refused while another client is told that its line is no request, of which the end
came together with the begin of the next one. -/
def twoClients : List AcceptorAction :=
  [.accept (.ok 0), .accept (.ok 1000), .connection 1 .admission, .connection 1 (.arrive [120]),
    .connection 0 .admission, .connection 1 (.arrive [newline, 120]), .connection 0 (.refuse true),
    .connection 1 .read, .connection 1 (.wrote true)]

theorem accounts_of_reachable_twoClients : ∃ s,
    (acceptorSystem (fun _ => quietEnvironment) 1000).run .initial twoClients = some s ∧
      s.permits = 63 ∧ s.connections.map (·.sent.length) = [1, 1] ∧
      s.connections.map (·.served) = [[], [[120, newline]]] ∧
      s.connections.map (·.pending) = [[], [120]] ∧ s.permits + s.live = maxConnections ∧
      ∀ (i : ℕ) (c : Connection), s.connections[i]? = some c → c.Account quietEnvironment 1000 := by
  obtain ⟨s, hs, hfacts⟩ : ∃ s,
      (acceptorSystem (fun _ => quietEnvironment) 1000).run .initial twoClients = some s ∧
        decide (s.permits = 63 ∧ s.connections.map (·.sent.length) = [1, 1] ∧
          s.connections.map (·.served) = [[], [[120, newline]]] ∧
          s.connections.map (·.pending) = [[], [120]]) = true :=
    Option.map_eq_some_iff.mp (by decide +kernel)
  obtain ⟨hpermits, hsent, hserved, hpending⟩ := of_decide_eq_true hfacts
  obtain ⟨hplaces, -, hall⟩ := accounts_of_reachable (fun _ => quietEnvironment) 1000 s
    ⟨.initial, rfl, TransitionSystem.steps_of_run hs⟩
  exact ⟨s, hs, hpermits, hsent, hserved, hpending, hplaces, fun i c hc => (hall i c hc).1⟩

/-! ### Places that come back -/

/-- What a connection does alone, it does among the others. -/
theorem steps_connection (hc : s.connections[i]? = some c)
    (hsteps : (connectionSystem (env i) ours).Steps (fun _ action _ => action.isOwn) c c') :
    ∃ s', (acceptorSystem env ours).Steps (fun _ action _ => action.isOwn) s s' ∧
      s'.connections = s.connections.set i c' := by
  obtain ⟨hi, hget⟩ := List.getElem?_eq_some_iff.mp hc
  refine hsteps.invariant (I := fun c' => ∃ s',
    (acceptorSystem env ours).Steps (fun _ action _ => action.isOwn) s s' ∧
      s'.connections = s.connections.set i c') ⟨s, .refl s, ?_⟩ ?_
  · rw [← hget, List.set_getElem_self]
  · rintro u action v - ⟨t, hst, ht⟩ hown hstep
    have hu : t.connections[i]? = some u := by rw [ht, List.getElem?_set_self hi]
    have hmove : (acceptorSystem env ours).step t (.connection i action) = some { t with
        permits := if v.isLive then t.permits else t.permits + 1
        connections := t.connections.set i v } := by
      show (t.connections[i]?.bind fun c => (c.step (env i) ours action).map _) = _
      rw [hu]
      exact congrArg (Option.map _) hstep
    refine ⟨_, hst.tail ⟨.connection i action, hown, hmove⟩, ?_⟩
    show t.connections.set i v = _
    rw [ht, List.set_set]

/-- One connection after another comes to be released. -/
theorem exists_released (env : ℕ → Environment) (ours : ℕ) (s : Acceptor) (n : ℕ) :
    ∃ s', (acceptorSystem env ours).Steps (fun _ action _ => action.isOwn) s s' ∧
      ∀ (i : ℕ) (c : Connection), i < n → s'.connections[i]? = some c → c.isLive → c.isHeld := by
  induction n with
  | zero => exact ⟨s, .refl s, fun i c hi => absurd hi (Nat.not_lt_zero i)⟩
  | succ n ih =>
    obtain ⟨t, hst, hheld⟩ := ih
    rcases hn : t.connections[n]? with _ | c
    · refine ⟨t, hst, fun i c hi hc => ?_⟩
      rcases Nat.lt_succ_iff_lt_or_eq.mp hi with hi | rfl
      · exact hheld i c hi hc
      · rw [hn] at hc
        cases hc
    · obtain ⟨c', hsteps, hc'⟩ := c.released (env n) ours
      obtain ⟨u, htu, hu⟩ := steps_connection hn hsteps
      refine ⟨u, hst.trans htu, fun i other hi hother => ?_⟩
      rw [hu] at hother
      obtain ⟨-, rfl⟩ | ⟨hne, hother⟩ := getElem?_set_cases hother
      · exact hc'
      · exact hheld i other (by omega) hother

/-- What becomes of a connection while none is accepted. -/
def Keeps (c c' : Connection) : Prop := c'.peer = c.peer ∧ (c'.isLive → c.isLive)

theorem keeps_of_steps
    (h : (acceptorSystem env ours).Steps (fun _ action _ => action.isOwn) s s') :
    List.Forall₂ Keeps s.connections s'.connections := by
  refine h.invariant (I := fun s' => List.Forall₂ Keeps s.connections s'.connections)
    (List.forall₂_same.mpr fun c _ => ⟨rfl, id⟩) ?_
  rintro u action v - hkeeps hown hstep
  cases action with
  | accept | acceptFails | resume => exact absurd hown Bool.false_ne_true
  | connection i action =>
    obtain ⟨c, c', hc, hc', -, hconnections⟩ := step_connection hstep
    obtain ⟨hlength, hall⟩ := List.forall₂_iff_get.mp hkeeps
    rw [hconnections, List.forall₂_iff_get]
    refine ⟨by rw [List.length_set, hlength], fun j hj hj' => ?_⟩
    rw [List.length_set] at hj'
    have hbefore := hall j hj hj'
    simp only [List.get_eq_getElem, List.getElem_set] at hbefore ⊢
    split_ifs with hij
    · subst hij
      obtain ⟨hi, hget⟩ := List.getElem?_eq_some_iff.mp hc
      rw [hget] at hbefore
      exact ⟨(Connection.peer_step hc').trans hbefore.1,
        fun _ => hbefore.2 (Connection.isLive_of_step hc')⟩
    · exact hbefore

theorem countP_le_of_forall₂ {l l' : List Connection} {p q : Connection → Bool}
    (h : List.Forall₂ Keeps l l') (hpq : ∀ c c', Keeps c c' → q c' → p c) :
    l'.countP q ≤ l.countP p := by
  induction h with
  | nil => exact le_rfl
  | cons hc _ ih =>
    rw [List.countP_cons, List.countP_cons]
    have himp := hpq _ _ hc
    split_ifs with hq hp
    · omega
    · exact absurd (himp hq) hp
    · omega
    · omega

/-- **Places come back.** Whatever clients have done, timeouts alone bring the tasks to where every
connection that still holds a place is one of the same user, and either streams events or waits for
its client to read an answer. A stranger, or a client that says nothing or no more than half a line,
cannot keep a place. -/
theorem places_come_back (env : ℕ → Environment) (ours : ℕ) (s : Acceptor)
    (h : (acceptorSystem env ours).Reachable AnyStep s) :
    ∃ s', (acceptorSystem env ours).Steps (fun _ action _ => action.isOwn) s s' ∧
      (∀ c ∈ s'.connections, c.isLive → c.peer = .ok ours ∧ c.isHeld) ∧
      maxConnections ≤ s'.permits + s.connections.countP fun c => c.isLive && c.isOurs ours := by
  obtain ⟨s', hsteps, hheld⟩ := exists_released env ours s s.connections.length
  have hkeeps := keeps_of_steps hsteps
  have hI := inv_of_reachable (h.steps hsteps.anyStep)
  have hlive : ∀ c ∈ s'.connections, c.isLive → c.peer = .ok ours ∧ c.isHeld := by
    intro c hc hlive
    obtain ⟨i, hi⟩ := List.mem_iff_getElem?.mp hc
    obtain ⟨hlt, -⟩ := List.getElem?_eq_some_iff.mp hi
    have hcheld := hheld i c (hkeeps.length_eq ▸ hlt) hi hlive
    exact ⟨(hI.account i c hi).peer_eq_of_isHeld hcheld, hcheld⟩
  refine ⟨s', hsteps, hlive, ?_⟩
  have hcount : s'.live ≤ s.connections.countP fun c => c.isLive && c.isOurs ours := by
    have hours : s'.live = s'.connections.countP fun c => c.isLive && c.isOurs ours := by
      refine List.countP_congr fun c hc => ?_
      rw [Bool.and_eq_true, iff_self_and]
      intro hclive
      rw [Connection.isOurs, (hlive c hc hclive).1, refusal]
      simp
    rw [hours]
    refine countP_le_of_forall₂ hkeeps fun c c' hc hc' => ?_
    rw [Bool.and_eq_true] at hc' ⊢
    rw [Connection.isOurs, hc.1] at hc'
    exact ⟨hc.2 hc'.1, hc'.2⟩
  have hplaces := hI.places
  omega

/-- A client whose line has not come to its end, and a stranger that was not told so far. -/
theorem places_come_back_waiting : ∃ s s',
    (acceptorSystem (fun _ => quietEnvironment) 1000).run .initial (twoClients.take 5) = some s ∧
      (acceptorSystem (fun _ => quietEnvironment) 1000).Steps (fun _ action _ => action.isOwn) s s' ∧
      s.permits = 62 ∧ 63 ≤ s'.permits := by
  obtain ⟨s, hs, hfacts⟩ : ∃ s,
      (acceptorSystem (fun _ => quietEnvironment) 1000).run .initial (twoClients.take 5) = some s ∧
        decide (s.permits = 62 ∧
          (s.connections.countP fun c => c.isLive && c.isOurs 1000) = 1) = true :=
    Option.map_eq_some_iff.mp (by decide +kernel)
  obtain ⟨hpermits, hours⟩ := of_decide_eq_true hfacts
  obtain ⟨s', hsteps, -, hplaces⟩ := places_come_back (fun _ => quietEnvironment) 1000 s
    ⟨.initial, rfl, TransitionSystem.steps_of_run hs⟩
  rw [hours, maxConnections] at hplaces
  exact ⟨s, s', hs, hsteps, hpermits, by omega⟩

end Acceptor

end Server

end Servicrab
