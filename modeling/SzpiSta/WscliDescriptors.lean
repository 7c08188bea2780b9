import SzpiSta.ExternalCalls
import SzpiSta.TransitionPaths

/-!
# The descriptors of the websocket client

`wscli_init` of wscli.c stores the descriptors of the socket and of the
websocket in two globals, `wscli_fini` closes what the globals hold, and main.c
polls the websocket until a receive fails.  An attempt to connect overwrites the
first global without looking at it, so it loses the descriptor that an earlier
attempt left there, and loses none if there was none.
-/

namespace SzpiSta

namespace Wscli

open ExternalCalls ExternalCalls.Program TransitionPaths

inductive Call where
  | socket
  | connect (sock : Int)
  | websocketConnect (sock : Int)
  | close (fd : Int)

@[reducible]
def Call.Answer : Call → Type
  | .socket => Int
  | .connect _ => Int
  | .websocketConnect _ => Int
  | .close _ => Unit

abbrev WsProgram := Program Call Call.Answer

abbrev ask (call : Call) : WsProgram call.Answer := request call

/-- `g_sock4` and `g_websock4`, and the socket entry of `g_fds`. -/
structure Globals where
  gSock4 : Int
  gWebsock4 : Int
  gFdsSocket : Int
  deriving DecidableEq

/-- The return code and the socket. -/
def setupSocket : WsProgram (Int × Int) := do
  let sock ← ask .socket
  return (0, sock)

def connectSocket : WsProgram (Int × Int) := do
  let (ret, sock) ← setupSocket
  if ret < 0 ∨ sock < 0 then
    return (-1, sock)
  let ret ← ask (.connect sock)
  if ret < 0 then
    return (-1, sock)
  return (ret, sock)

def wscliInit (g : Globals) : WsProgram (Int × Globals) := do
  let (ret, sock) ← connectSocket
  let g := { g with gSock4 := sock }
  if ret ≠ 0 then
    return (-1, g)
  if g.gSock4 < 0 then
    return (-1, g)
  let websock ← ask (.websocketConnect g.gSock4)
  let g := { g with gWebsock4 := websock }
  if g.gWebsock4 < 0 then
    ask (.close g.gSock4)
    return (-1, { g with gSock4 := -1 })
  return (0, g)

/-- One of the two blocks of `wscli_fini`, with what it leaves in the global. -/
def closeValid (fd : Int) : WsProgram Int := do
  if 0 ≤ fd then
    ask (.close fd)
    return -1
  return fd

def wscliFini (g : Globals) : WsProgram (Int × Globals) := do
  let gWebsock4 ← closeValid g.gWebsock4
  let gSock4 ← closeValid g.gSock4
  return (0, { g with gSock4, gWebsock4 })

def wscliGetsock (g : Globals) : Int := g.gWebsock4

/-- The result of `wscli_init` is not looked at. -/
def tryConnectWs (g : Globals) : WsProgram (Int × Globals) := do
  let (_, g) ← wscliInit g
  let websock := wscliGetsock g
  if websock < 0 then
    return (-1, g)
  return (0, { g with gFdsSocket := websock })

/-- A new descriptor is not one that is open. -/
def Opens (before : List Int) (fd : Int) (after : List Int) : Prop :=
  if fd < 0 then after = before else fd ∉ before ∧ after = fd :: before

/-- The calls, over the descriptors that are open. -/
def environment : Environment Call.Answer (List Int) where
  answers before call answer after :=
    match call with
    | .socket => Opens before answer after
    | .connect _ => after = before
    | .websocketConnect _ => Opens before answer after
    | .close fd => after = before.filter (· ≠ fd)

structure Client where
  globals : Globals
  opened : List Int

inductive Label where
  | tryConnectWs
  | wscliFini
  | receiveFails
  deriving DecidableEq

/-- One of the operations.  `poll_loop` receives only while it polls the
websocket. -/
def Step (before : Client) (label : Label) (after : Client) : Prop :=
  match label with
  | .tryConnectWs => ∃ trace ret, Runs environment (tryConnectWs before.globals)
      before.opened trace (ret, after.globals) after.opened
  | .wscliFini => ∃ trace ret, Runs environment (wscliFini before.globals)
      before.opened trace (ret, after.globals) after.opened
  | .receiveFails => 0 ≤ before.globals.gFdsSocket ∧
      after = { before with
        globals := { before.globals with gFdsSocket := -1 } }

/-- Before the first attempt. -/
def start : Client := ⟨⟨-1, -1, -1⟩, []⟩

/-- The globals once `try_connect_ws` has looked at the websocket. -/
def Globals.install (g : Globals) : Globals :=
  if g.gWebsock4 < 0 then g else { g with gFdsSocket := g.gWebsock4 }

@[simp]
theorem Globals.install_gSock4 (g : Globals) : g.install.gSock4 = g.gSock4 := by
  unfold Globals.install
  split <;> rfl

@[simp]
theorem Globals.install_gWebsock4 (g : Globals) :
    g.install.gWebsock4 = g.gWebsock4 := by
  unfold Globals.install
  split <;> rfl

/-- What `wscli_init` does: there is no socket, no connection, no websocket, or
all three. -/
inductive InitEffect (g : Globals) (opened : List Int) :
    Globals → List Int → Prop where
  | noSocket (sock : Int) (negative : sock < 0) :
      InitEffect g opened { g with gSock4 := sock } opened
  | unconnected (sock : Int) (valid : 0 ≤ sock) (fresh : sock ∉ opened) :
      InitEffect g opened { g with gSock4 := sock } (sock :: opened)
  | noWebsocket (websock : Int) (negative : websock < 0) :
      InitEffect g opened { g with gSock4 := -1, gWebsock4 := websock } opened
  | connected (sock websock : Int) (valid : 0 ≤ sock) (fresh : sock ∉ opened)
      (validToo : 0 ≤ websock) (freshToo : websock ∉ sock :: opened) :
      InitEffect g opened { g with gSock4 := sock, gWebsock4 := websock }
        (websock :: sock :: opened)

section Programs

variable {g : Globals} {opened : List Int}

theorem filter_fresh {fd : Int} (fresh : fd ∉ opened) :
    (fd :: opened).filter (· ≠ fd) = opened := by
  rw [List.filter_cons_of_neg (by simp)]
  apply List.filter_eq_self.mpr
  intro other member
  have apart : other ≠ fd := fun same => fresh (same ▸ member)
  simpa using apart

/-- A valid descriptor is new and open. -/
theorem Opens.valid {fd : Int} {after : List Int} (opens : Opens opened fd after)
    (valid : ¬ fd < 0) : fd ∉ opened ∧ after = fd :: opened := by
  rwa [Opens, if_neg valid] at opens

theorem Opens.invalid {fd : Int} {after : List Int}
    (opens : Opens opened fd after) (invalid : fd < 0) : after = opened := by
  rwa [Opens, if_pos invalid] at opens

theorem connectSocket_effect :
    Ensures environment connectSocket opened fun _ result after =>
      Opens opened result.2 after ∧ (result.2 < 0 → result.1 ≠ 0) := by
  unfold connectSocket setupSocket
  simp only [ensures_bind, ensures_request, ensures_pure]
  rintro (sock : Int) created (opens : Opens opened sock created)
  split
  · exact ensures_pure.mpr ⟨opens, fun _ => (by decide : (-1 : Int) ≠ 0)⟩
  case isFalse valid =>
  have noSocket : ¬ sock < 0 := fun negative => valid (.inr negative)
  simp only [ensures_bind, ensures_request]
  rintro (ret : Int) _ rfl
  split
  · exact ensures_pure.mpr ⟨opens, fun _ => (by decide : (-1 : Int) ≠ 0)⟩
  · exact ensures_pure.mpr ⟨opens, fun negative => (noSocket negative).elim⟩

theorem wscliInit_effect :
    Ensures environment (wscliInit g) opened fun _ result after =>
      InitEffect g opened result.2 after := by
  unfold wscliInit
  rw [ensures_bind]
  refine connectSocket_effect.mono fun _ result created ⟨opens, refused⟩ => ?_
  obtain ⟨ret, sock⟩ := result
  dsimp only at opens refused ⊢
  by_cases negative : sock < 0
  · rw [if_pos (refused negative), opens.invalid negative]
    exact ensures_pure.mpr (.noSocket sock negative)
  obtain ⟨fresh, rfl⟩ := opens.valid negative
  have valid : 0 ≤ sock := Int.not_lt.mp negative
  split
  · exact ensures_pure.mpr (.unconnected sock valid fresh)
  simp only [ensures_bind, ensures_request]
  rintro (websock : Int) upgraded (opens : Opens _ websock upgraded)
  by_cases noWebsocket : websock < 0
  · rw [if_pos noWebsocket, opens.invalid noWebsocket]
    simp only [ensures_bind, ensures_request, ensures_pure]
    rintro _ closed (isClosed : closed = _)
    rw [isClosed, filter_fresh fresh]
    exact .noWebsocket websock noWebsocket
  · obtain ⟨freshToo, rfl⟩ := opens.valid noWebsocket
    rw [if_neg noWebsocket, ensures_pure]
    exact .connected sock websock valid fresh (Int.not_lt.mp noWebsocket)
      freshToo

theorem tryConnectWs_effect :
    Ensures environment (tryConnectWs g) opened fun _ result after =>
      ∃ g', InitEffect g opened g' after ∧ result.2 = g'.install := by
  unfold tryConnectWs
  rw [ensures_bind]
  refine wscliInit_effect.mono fun _ result after initialised => ?_
  obtain ⟨ret, g'⟩ := result
  unfold wscliGetsock
  by_cases none : g'.gWebsock4 < 0
  · simp only [none, if_true, ensures_pure]
    exact ⟨g', initialised, (if_pos none).symm⟩
  · simp only [none, if_false, ensures_pure]
    exact ⟨g', initialised, (if_neg none).symm⟩

/-- The descriptors that are still open once this one is closed, if it is
valid. -/
def closing (fd : Int) (opened : List Int) : List Int :=
  if 0 ≤ fd then opened.filter (· ≠ fd) else opened

theorem closeValid_effect {fd : Int} :
    Ensures environment (closeValid fd) opened fun _ result after =>
      result < 0 ∧ after = closing fd opened := by
  unfold closeValid closing
  split
  · simp only [ensures_bind, ensures_request, ensures_pure]
    rintro _ _ (isClosed : _ = _)
    exact ⟨by decide, isClosed⟩
  case isFalse invalid =>
    exact ensures_pure.mpr ⟨Int.not_le.mp invalid, rfl⟩

theorem wscliFini_effect :
    Ensures environment (wscliFini g) opened fun _ result after =>
      (result.2.gSock4 < 0 ∧ result.2.gWebsock4 < 0) ∧
        after = closing g.gSock4 (closing g.gWebsock4 opened) := by
  unfold wscliFini
  rw [ensures_bind]
  refine closeValid_effect.mono fun _ gWebsock4 _ ⟨noWebsocket, closed⟩ => ?_
  rw [ensures_bind]
  refine closeValid_effect.mono fun _ gSock4 _ ⟨noSocket, closedToo⟩ => ?_
  rw [ensures_pure, closedToo, closed]
  exact ⟨⟨noSocket, noWebsocket⟩, rfl⟩

end Programs

/-- Every open descriptor is in one of the globals, and `wscli_fini` closes
it. -/
structure Tracked (client : Client) : Prop where
  held : ∀ fd ∈ client.opened,
    fd = client.globals.gSock4 ∨ fd = client.globals.gWebsock4
  closed : ∀ after, Step client .wscliFini after → after.opened = []

/-- What the globals hold is open, in all runs. -/
structure Owned (client : Client) : Prop where
  valid : ∀ fd ∈ client.opened, 0 ≤ fd
  sock : 0 ≤ client.globals.gSock4 → client.globals.gSock4 ∈ client.opened
  websock : 0 ≤ client.globals.gWebsock4 →
    client.globals.gWebsock4 ∈ client.opened
  apart : 0 ≤ client.globals.gSock4 →
    client.globals.gSock4 ≠ client.globals.gWebsock4

/-- All that is open is in the globals, and there is no websocket without a
socket. -/
structure Settled (client : Client) : Prop where
  held : ∀ fd ∈ client.opened,
    fd = client.globals.gSock4 ∨ fd = client.globals.gWebsock4
  noWebsocket : client.globals.gSock4 < 0 → client.globals.gWebsock4 < 0

section Steps

variable {before after : Client} {label : Label}

theorem mem_closing_iff {fd other : Int} {opened : List Int}
    (valid : 0 ≤ other) :
    other ∈ closing fd opened ↔ other ∈ opened ∧ other ≠ fd := by
  unfold closing
  split
  · simp
  case isFalse invalid =>
    have apart : other ≠ fd := fun same => invalid (same ▸ valid)
    simp [apart]

theorem closing_subset {fd : Int} {opened : List Int} :
    closing fd opened ⊆ opened := by
  unfold closing
  split
  · exact List.filter_subset_self _
  · exact List.Subset.refl _

theorem owned_start : Owned start :=
  ⟨by simp [start], by simp [start], by simp [start], by simp [start]⟩

/-- `install` looks only at the third global. -/
theorem Owned.install {globals : Globals} {opened : List Int}
    (owned : Owned ⟨globals, opened⟩) : Owned ⟨globals.install, opened⟩ := by
  refine ⟨owned.valid, ?_, ?_, ?_⟩
  · simpa using owned.sock
  · simpa using owned.websock
  · simpa using owned.apart

theorem Owned.init {g g' : Globals} {opened opened' : List Int}
    (owned : Owned ⟨g, opened⟩) (initialised : InitEffect g opened g' opened') :
    Owned ⟨g', opened'⟩ := by
  obtain ⟨valid, -, websock, -⟩ := owned
  dsimp only at valid websock
  cases initialised with
  | noSocket sock negative =>
      exact ⟨valid, fun isValid => absurd isValid (Int.not_le.mpr negative),
        websock, fun isValid => absurd isValid (Int.not_le.mpr negative)⟩
  | unconnected sock isValid fresh =>
      refine ⟨?_, fun _ => List.mem_cons_self,
        fun isOpen => List.mem_cons_of_mem _ (websock isOpen),
        fun _ (same : sock = g.gWebsock4) => ?_⟩
      · exact List.forall_mem_cons.mpr ⟨isValid, valid⟩
      · exact fresh (same ▸ websock (same ▸ isValid))
  | noWebsocket websock negative =>
      refine ⟨valid, fun isValid => ?_, fun isValid => ?_, fun isValid => ?_⟩
      · exact absurd isValid (by decide : ¬ (0 : Int) ≤ -1)
      · exact absurd isValid (Int.not_le.mpr negative)
      · exact absurd isValid (by decide : ¬ (0 : Int) ≤ -1)
  | connected sock websock isValid fresh isValidToo freshToo =>
      refine ⟨?_, fun _ => List.mem_cons_of_mem _ List.mem_cons_self,
        fun _ => List.mem_cons_self, fun _ (same : sock = websock) => ?_⟩
      · exact List.forall_mem_cons.mpr
          ⟨isValidToo, List.forall_mem_cons.mpr ⟨isValid, valid⟩⟩
      · exact freshToo (same ▸ List.mem_cons_self)

/-- The step lemma of the ownership. -/
theorem Owned.step (owned : Owned before) (step : Step before label after) :
    Owned after := by
  rcases after with ⟨globals, opened⟩
  cases label with
  | tryConnectWs =>
      obtain ⟨trace, ret, runs⟩ := step
      obtain ⟨g', initialised, rfl⟩ := tryConnectWs_effect _ _ _ runs
      exact (Owned.init owned initialised).install
  | wscliFini =>
      obtain ⟨trace, ret, runs⟩ := step
      obtain ⟨⟨noSocket, noWebsocket⟩, rfl⟩ := wscliFini_effect _ _ _ runs
      refine ⟨fun fd member => ?_, fun valid => ?_, fun valid => ?_,
        fun valid => ?_⟩
      · exact owned.valid fd (closing_subset (closing_subset member))
      all_goals exact (Int.not_le.mpr ‹_› valid).elim
  | receiveFails =>
      obtain ⟨-, same⟩ := step
      cases same
      exact ⟨owned.valid, owned.sock, owned.websock, owned.apart⟩

/-- `wscli_fini` closes what the globals hold. -/
theorem tracked_of_held (owned : Owned before)
    (held : ∀ fd ∈ before.opened,
      fd = before.globals.gSock4 ∨ fd = before.globals.gWebsock4) :
    Tracked before := by
  refine ⟨held, fun after step => ?_⟩
  obtain ⟨trace, ret, runs⟩ := step
  obtain ⟨-, closed⟩ := wscliFini_effect _ _ _ runs
  rw [closed]
  apply List.eq_nil_iff_forall_not_mem.mpr
  intro fd member
  have isOpen := closing_subset (closing_subset member)
  have valid := owned.valid fd isOpen
  rw [mem_closing_iff valid, mem_closing_iff valid] at member
  rcases held fd isOpen with same | same
  · exact member.2 same
  · exact member.1.2 same

/-- An attempt that finds nothing in the first global loses nothing. -/
theorem Settled.step (owned : Owned before) (settled : Settled before)
    (step : Step before label after)
    (ok : label = .tryConnectWs → before.globals.gSock4 < 0) :
    Settled after := by
  rcases after with ⟨globals, opened⟩
  cases label with
  | tryConnectWs =>
      obtain ⟨trace, ret, runs⟩ := step
      obtain ⟨g', initialised, rfl⟩ := tryConnectWs_effect _ _ _ runs
      have noSocket := ok rfl
      have noWebsocket := settled.noWebsocket noSocket
      have noneOpen : before.opened = [] := by
        apply List.eq_nil_iff_forall_not_mem.mpr
        intro fd member
        have valid := owned.valid fd member
        rcases settled.held fd member with rfl | rfl <;> omega
      rw [noneOpen] at initialised
      refine ⟨?_, ?_⟩
      · simp only [Globals.install_gSock4, Globals.install_gWebsock4]
        cases initialised <;> simp
      · simp only [Globals.install_gSock4, Globals.install_gWebsock4]
        cases initialised with
        | noSocket => exact fun _ => noWebsocket
        | unconnected sock valid =>
            exact fun negative => absurd valid (Int.not_le.mpr negative)
        | noWebsocket websock negative => exact fun _ => negative
        | connected sock websock valid =>
            exact fun negative => absurd valid (Int.not_le.mpr negative)
  | wscliFini =>
      obtain ⟨trace, ret, runs⟩ := step
      obtain ⟨⟨-, noWebsocket⟩, -⟩ := wscliFini_effect _ _ _ runs
      have closed := (tracked_of_held owned settled.held).closed _
        ⟨trace, ret, runs⟩
      refine ⟨fun fd member => ?_, fun _ => noWebsocket⟩
      have member : fd ∈ [] := closed ▸ member
      cases member
  | receiveFails =>
      obtain ⟨-, same⟩ := step
      cases same
      exact ⟨settled.held, settled.noWebsocket⟩

/-- An attempt that finds a descriptor in the first global loses it. -/
theorem not_tracked_of_overwritten (owned : Owned before)
    (step : Step before .tryConnectWs after)
    (occupied : 0 ≤ before.globals.gSock4) : ¬ Tracked after := by
  rcases after with ⟨globals, opened⟩
  obtain ⟨trace, ret, runs⟩ := step
  obtain ⟨g', initialised, rfl⟩ := tryConnectWs_effect _ _ _ runs
  rintro ⟨held, -⟩
  have isOpen := owned.sock occupied
  have apart := owned.apart occupied
  simp only [Globals.install_gSock4, Globals.install_gWebsock4] at held
  cases initialised with
  | noSocket sock negative =>
      rcases held _ isOpen with same | same
      · dsimp only at same
        omega
      · exact apart same
  | unconnected sock valid fresh =>
      rcases held _ (List.mem_cons_of_mem _ isOpen) with same | same
      · have same : before.globals.gSock4 = sock := same
        exact fresh (same ▸ isOpen)
      · exact apart same
  | noWebsocket websock negative =>
      rcases held _ isOpen with same | same
      · dsimp only at same
        omega
      · dsimp only at same
        omega
  | connected sock websock valid fresh validToo freshToo =>
      have stillOpen := List.mem_cons_of_mem sock isOpen
      rcases held _ (List.mem_cons_of_mem _ stillOpen) with same | same
      · have same : before.globals.gSock4 = sock := same
        exact fresh (same ▸ isOpen)
      · have same : before.globals.gSock4 = websock := same
        exact freshToo (same ▸ stillOpen)

end Steps

section Runs

variable {labels : List Label} {last : Client}

theorem owned_of_path (path : Path Step start labels last) : Owned last :=
  path.invariant Owned (fun _ _ _ owned step => owned.step step) owned_start

/-- An attempt finds no descriptor in `g_sock4`. -/
def FindsNoSocket (before : Client) (label : Label) : Prop :=
  label = .tryConnectWs → before.globals.gSock4 < 0

/-- Every open descriptor is in one of the globals in all states of a run,
exactly if no attempt to connect finds a descriptor in `g_sock4`. -/
theorem descriptors_tracked_iff :
    EveryState Step Tracked start labels last ↔
      EveryStep Step (fun before label _ => FindsNoSocket before label) start
        labels last := by
  constructor
  · intro tracked earlier label later before after split toBefore step toLast
    rintro rfl
    by_contra occupied
    have overwritten := not_tracked_of_overwritten (owned_of_path toBefore) step
      (Int.not_lt.mp occupied)
    apply overwritten
    refine tracked (earlier ++ [.tryConnectWs]) later after ?_ ?_ toLast
    · rw [split, List.append_assoc]
      rfl
    · exact toBefore.append (path_singleton_iff.mpr step)
  · intro finds
    have settled : EveryState Step (fun client => Owned client ∧ Settled client)
        start labels last := by
      refine finds.everyState ?_ ⟨owned_start, ?_⟩
      · rintro before label after ⟨owned, settled⟩ step ok
        exact ⟨owned.step step, Settled.step owned settled step ok⟩
      · exact ⟨by simp [start], fun _ => by simp [start]⟩
    intro earlier later middle split toMiddle toLast
    obtain ⟨owned, settled⟩ := settled _ _ _ split toMiddle toLast
    exact tracked_of_held owned settled.held

/-- Two attempts in a row whose `connect` fails: the first descriptor is open
and in neither global. -/
theorem second_attempt_loses_descriptor :
    Path Step start [.tryConnectWs, .tryConnectWs] ⟨⟨4, -1, -1⟩, [4, 3]⟩ ∧
      ¬ Tracked ⟨⟨4, -1, -1⟩, [4, 3]⟩ := by
  have first : Step start .tryConnectWs ⟨⟨3, -1, -1⟩, [3]⟩ := by
    refine ⟨[⟨.socket, (3 : Int)⟩, ⟨.connect 3, (-1 : Int)⟩], -1, ?_⟩
    apply Runs.call
    · exact (by simp [Opens] : Opens [] 3 [3])
    apply Runs.call
    · exact rfl
    exact .done _ _
  have second : Step ⟨⟨3, -1, -1⟩, [3]⟩ .tryConnectWs ⟨⟨4, -1, -1⟩, [4, 3]⟩ := by
    refine ⟨[⟨.socket, (4 : Int)⟩, ⟨.connect 4, (-1 : Int)⟩], -1, ?_⟩
    apply Runs.call
    · exact (by simp [Opens] : Opens [3] 4 [4, 3])
    apply Runs.call
    · exact rfl
    exact .done _ _
  refine ⟨.cons first (.cons second (.nil _)), fun tracked => ?_⟩
  exact absurd (tracked.held 3 (by decide)) (by decide)

end Runs

end Wscli

end SzpiSta
