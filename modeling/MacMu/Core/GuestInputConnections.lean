import MacMu.Core.GuestInputSender

/-!
Who has a guest input connection, and what is on it. An open connection is the published
one or the one that the accept thread has not published yet. On the published one are the
lines of the calls that have returned true, and what the call that has the mutex has added.
-/

namespace MacMu
namespace GuestInputSender

open GuestControlClient (ascii)
open TransitionSystem

def Call.line? (call : Call) : Option Bytes :=
  match call.outgoing with
  | .done _ => none
  | .line bytes _ => some bytes

/-- The lines of the calls that have returned true, as far as they found this connection. -/
def linesOn (returned : List Return) (fd : Nat) : List Bytes :=
  returned.filterMap fun r => if r.result ∧ r.connection = some fd then r.call.line? else none

/-- The connection of an accept thread that has not published it. -/
def AcceptPhase.connection : AcceptPhase → Option Nat
  | preparing fd | pinging fd | awaiting fd | refusing fd | publishing fd => some fd
  | looping | loading | accepting | finished => none

def Incomplete (part : Bytes) : Prop :=
  ∃ call line reliable, Call.outgoing call = .line line reliable ∧ part <+: line ∧ part ≠ line

section Lines

variable (returned : List Return) (call : Call) (fd : Nat)

theorem linesOn_append_done (connection : Option Nat) {result : Bool}
    (h : result = false ∨ connection ≠ some fd) :
    linesOn (returned ++ [⟨call, connection, result⟩]) fd = linesOn returned fd := by
  have hnone : ¬(result = true ∧ connection = some fd) := by
    rintro ⟨hresult, hconnection⟩
    obtain hfalse | hne := h
    · cases hfalse.symm.trans hresult
    · exact hne hconnection
  rw [linesOn, List.filterMap_append, ← linesOn, List.filterMap_cons, if_neg hnone,
    List.filterMap_nil, List.append_nil]

theorem linesOn_append_line {line : Bytes} {reliable : Bool}
    (h : call.outgoing = .line line reliable) :
    linesOn (returned ++ [⟨call, some fd, true⟩]) fd = linesOn returned fd ++ [line] := by
  rw [linesOn, List.filterMap_append, ← linesOn, List.filterMap_cons, if_pos ⟨rfl, rfl⟩,
    Call.line?, h]
  rfl

theorem linesOn_eq_nil (h : ∀ r ∈ returned, r.connection ≠ some fd) : linesOn returned fd = [] := by
  rw [linesOn, List.filterMap_eq_nil_iff]
  intro r hr
  exact if_neg fun hon => h r hr hon.2

end Lines

theorem incomplete_nil : Incomplete [] :=
  ⟨.hoverExit, ascii "e" ++ [10], true, rfl, List.nil_prefix, nofun⟩

/-- What the call that has the mutex has added to the connection. -/
def Added (mutex : Option Holder) (part : Bytes) : Prop :=
  match mutex with
  | none => part = []
  | some h =>
    match h.stage with
    | .leave (some _) true => part = h.line
    | .drop _ => part <+: h.line ∧ part ≠ h.line
    | _ => part = []

def AcceptPhase.Greeted : AcceptPhase → Bytes → Prop
  | preparing _, bytes | pinging _, bytes => bytes = []
  | awaiting _, bytes | publishing _, bytes => bytes = ping
  | refusing _, bytes => bytes <+: ping
  | _, _ => True

def Left (returned : List Return) (fd : Nat) (bytes : Bytes) : Prop :=
  (bytes <+: ping ∧ linesOn returned fd = []) ∨
    ∃ part, Incomplete part ∧ bytes = ping ++ (linesOn returned fd).flatten ++ part

def Stage.connection : Stage → Option Nat
  | send fd | poll fd | resend fd | drop fd => some fd
  | leave connection _ => connection

/-- The call can still write on its connection, or has written its line. -/
def Stage.live : Stage → Bool
  | leave _ result => result
  | _ => true

structure HolderInv (s : State) (h : Holder) : Prop where
  outgoing : h.call.outgoing = .line h.line h.reliable
  live : h.stage.live = true → ∃ fd, h.stage.connection = some fd ∧ s.writeFd = some fd
  known : ∀ fd, h.stage.connection = some fd →
    fd < s.sockets.length ∧ s.accept.connection ≠ some fd

theorem HolderInv.line_ne_nil {s : State} {h : Holder} (hholder : HolderInv s h) : [] ≠ h.line := by
  obtain ⟨body, hline, -⟩ := isLine_of_outgoing hholder.outgoing
  rw [hline]
  exact (List.append_ne_nil_of_right_ne_nil body (List.cons_ne_nil _ _)).symm

structure Inv (s : State) : Prop where
  client : ∀ fd, s.writeFd = some fd → ∃ c part, s.sockets[fd]? = some c ∧ c.isOpen = true ∧
    c.bytes = ping ++ (linesOn s.returned fd).flatten ++ part ∧ Added s.mutex part
  accepted : ∀ fd, s.accept.connection = some fd → s.writeFd ≠ some fd ∧
    (∀ r ∈ s.returned, r.connection ≠ some fd) ∧
    ∃ c, s.sockets[fd]? = some c ∧ c.isOpen = true ∧ s.accept.Greeted c.bytes
  closed : ∀ fd c, s.sockets[fd]? = some c → c.isOpen = false → Left s.returned fd c.bytes
  owned : ∀ fd c, s.sockets[fd]? = some c → c.isOpen = true →
    s.writeFd = some fd ∨ s.accept.connection = some fd
  holder : ∀ h, s.mutex = some h → HolderInv s h
  known : ∀ r ∈ s.returned, ∀ fd, r.connection = some fd → fd < s.sockets.length
  answered : ∀ r ∈ s.returned, r.result = true →
    r.call.outgoing = .done true ∨ r.call.line? ≠ none ∧ r.connection ≠ none

theorem inv_initial : Inv State.initial where
  client := nofun
  accepted := nofun
  closed := nofun
  owned := nofun
  holder := nofun
  known := nofun
  answered := nofun

section Sockets

variable {s : State} {fd other : Nat} {c : Socket}

theorem sockets_write_self (h : s.sockets[fd]? = some c) (bytes : Bytes) :
    (s.write fd bytes).sockets[fd]? = some { c with bytes := c.bytes ++ bytes } := by
  simp only [State.write, List.getElem?_modify, h, Option.map_eq_map, Option.map_some, if_pos]

theorem sockets_write_of_ne {bytes : Bytes} (h : other ≠ fd) :
    (s.write fd bytes).sockets[other]? = s.sockets[other]? := by
  simp only [State.write, List.getElem?_modify, if_neg h.symm, Option.map_eq_map, Option.map_id']

theorem sockets_close_self (h : s.sockets[fd]? = some c) :
    (s.close fd).sockets[fd]? = some { c with isOpen := false } := by
  simp only [State.close, List.getElem?_modify, h, Option.map_eq_map, Option.map_some, if_pos]

theorem sockets_close_of_ne (h : other ≠ fd) :
    (s.close fd).sockets[other]? = s.sockets[other]? := by
  simp only [State.close, List.getElem?_modify, if_neg h.symm, Option.map_eq_map, Option.map_id']

theorem length_sockets_write {bytes : Bytes} :
    (s.write fd bytes).sockets.length = s.sockets.length := List.length_modify ..

theorem length_sockets_close : (s.close fd).sockets.length = s.sockets.length :=
  List.length_modify ..

/-- What holds of the socket that has changed and of all others. -/
theorem forall_sockets {s' : State} {p : Nat → Socket → Prop} (hself : s'.sockets[fd]? = some c)
    (hothers : ∀ {other}, other ≠ fd → s'.sockets[other]? = s.sockets[other]?) (hp : p fd c)
    (h : ∀ other c', other ≠ fd → s.sockets[other]? = some c' → p other c') (other : Nat)
    (c' : Socket) (hc' : s'.sockets[other]? = some c') : p other c' := by
  by_cases heq : other = fd
  · subst heq
    obtain rfl := Option.some.inj (hself.symm.trans hc')
    exact hp
  · exact h other c' heq ((hothers heq).symm.trans hc')

@[simp] theorem closeClient_writeFd (s : State) : s.closeClient.writeFd = none := by
  unfold State.closeClient
  split
  · assumption
  · rfl

@[simp] theorem closeClient_mutex (s : State) : s.closeClient.mutex = s.mutex := by
  unfold State.closeClient
  split <;> rfl

@[simp] theorem closeClient_accept (s : State) : s.closeClient.accept = s.accept := by
  unfold State.closeClient
  split <;> rfl

@[simp] theorem closeClient_control (s : State) : s.closeClient.control = s.control := by
  unfold State.closeClient
  split <;> rfl

@[simp] theorem closeClient_returned (s : State) : s.closeClient.returned = s.returned := by
  unfold State.closeClient
  split <;> rfl

theorem sockets_closeClient (h : s.sockets[fd]? = some c) :
    ∃ c', s.closeClient.sockets[fd]? = some c' ∧ c'.bytes = c.bytes ∧
      (c.isOpen = false ∨ s.writeFd = some fd → c'.isOpen = false) := by
  cases hclient : s.writeFd with
  | none =>
    refine ⟨c, ?_, rfl, fun hopen => hopen.resolve_right nofun⟩
    rw [State.closeClient, hclient]
    exact h
  | some client =>
    rw [State.closeClient, hclient]
    by_cases heq : fd = client
    · subst heq
      exact ⟨_, sockets_close_self h, rfl, fun _ => rfl⟩
    · refine ⟨c, (sockets_close_of_ne heq).trans h, rfl, fun hopen => ?_⟩
      exact hopen.resolve_right fun hfd => heq (Option.some.inj hfd).symm

end Sockets

section Accepting

variable {s : State} (h : Inv s)

include h

theorem Inv.advance {old : AcceptPhase} (haccept : s.accept = old) (accept : AcceptPhase)
    (hconnection : accept.connection = old.connection)
    (hgreeted : ∀ bytes, old.Greeted bytes → accept.Greeted bytes) :
    Inv { s with accept := accept } where
  client := h.client
  accepted := by
    intro fd hfd
    subst haccept
    obtain ⟨hclient, hreturned, c, hc, hopen, hbytes⟩ := h.accepted fd (hconnection ▸ hfd)
    exact ⟨hclient, hreturned, c, hc, hopen, hgreeted _ hbytes⟩
  closed := h.closed
  owned := by
    intro fd c hc hopen
    change _ ∨ accept.connection = some fd
    rw [hconnection, ← haccept]
    exact h.owned fd c hc hopen
  holder := by
    intro holder hmutex
    have hholder := h.holder holder hmutex
    refine ⟨hholder.outgoing, hholder.live, fun fd hfd => ?_⟩
    change _ ∧ accept.connection ≠ some fd
    rw [hconnection, ← haccept]
    exact hholder.known fd hfd
  known := h.known
  answered := h.answered

theorem Inv.accept_connection (hnone : s.accept.connection = none) :
    Inv { s with
      sockets := s.sockets ++ [⟨[], true⟩], accept := .preparing s.sockets.length } where
  client := by
    intro fd hfd
    obtain ⟨c, part, hc, hrest⟩ := h.client fd hfd
    exact ⟨c, part, List.getElem?_append_left (List.getElem?_eq_some_iff.mp hc).1 ▸ hc, hrest⟩
  accepted := by
    rintro fd ⟨rfl⟩
    refine ⟨fun hclient => ?_, fun r hr hfd => ?_, ⟨[], true⟩, ?_, rfl, rfl⟩
    · obtain ⟨c, part, hc, -⟩ := h.client _ hclient
      exact Nat.lt_irrefl _ (List.getElem?_eq_some_iff.mp hc).1
    · exact Nat.lt_irrefl _ (h.known r hr _ hfd)
    · exact List.getElem?_concat_length
  closed := by
    intro fd c hc hclosed
    rw [List.getElem?_append] at hc
    split at hc
    · exact h.closed fd c hc hclosed
    · obtain rfl := List.mem_singleton.mp (List.mem_of_getElem? hc)
      cases hclosed
  owned := by
    intro fd c hc hopen
    by_cases hlt : fd < s.sockets.length
    · rw [List.getElem?_append_left hlt] at hc
      refine .inl ((h.owned fd c hc hopen).resolve_right fun hfd => ?_)
      cases hnone.symm.trans hfd
    · have hlast := (List.getElem?_eq_some_iff.mp hc).1
      rw [List.length_append, List.length_singleton] at hlast
      exact .inr (congrArg some (by omega))
  holder := by
    intro holder hmutex
    have hholder := h.holder holder hmutex
    refine ⟨hholder.outgoing, hholder.live, fun fd hfd => ?_⟩
    have hlt := (hholder.known fd hfd).1
    refine ⟨?_, fun heq => Nat.lt_irrefl _ (Option.some.inj heq ▸ hlt)⟩
    rw [List.length_append]
    omega
  known := by
    intro r hr fd hfd
    have hlt := h.known r hr fd hfd
    change fd < (s.sockets ++ _).length
    rw [List.length_append]
    omega
  answered := h.answered

theorem Inv.greet {fd : Nat} {c : Socket} (hconnection : s.accept.connection = some fd)
    (hsocket : s.sockets[fd]? = some c) (bytes : Bytes) (accept : AcceptPhase)
    (hkept : accept.connection = some fd) (hgreeted : accept.Greeted (c.bytes ++ bytes)) :
    Inv { s.write fd bytes with accept := accept } := by
  obtain ⟨hclient, hreturned, c', hc', hopen, -⟩ := h.accepted fd hconnection
  obtain rfl : c = c' := Option.some.inj (hsocket.symm.trans hc')
  have hself := sockets_write_self hsocket bytes
  refine ⟨?_, ?_, ?_, ?_, ?_, ?_, h.answered⟩
  · intro other hother
    have hne : other ≠ fd := fun heq => hclient (heq ▸ hother)
    obtain ⟨c', part, hc', hrest⟩ := h.client other hother
    exact ⟨c', part, (sockets_write_of_ne hne).trans hc', hrest⟩
  · intro other hother
    obtain rfl : other = fd := Option.some.inj (hother.symm.trans hkept)
    exact ⟨hclient, hreturned, _, hself, hopen, hgreeted⟩
  · exact forall_sockets hself sockets_write_of_ne
      (fun hclosed => nomatch hopen.symm.trans hclosed) fun other c' _ => h.closed other c'
  · refine forall_sockets hself sockets_write_of_ne (fun _ => .inr hkept) fun other c' _ => ?_
    dsimp only
    rw [hkept, ← hconnection]
    exact h.owned other c'
  · intro holder hmutex
    have hholder := h.holder holder hmutex
    refine ⟨hholder.outgoing, hholder.live, fun other hother => ?_⟩
    change other < (s.write fd bytes).sockets.length ∧ accept.connection ≠ some other
    rw [length_sockets_write, hkept, ← hconnection]
    exact hholder.known other hother
  · exact fun r hr other hother => (h.known r hr other hother).trans_eq length_sockets_write.symm

theorem Inv.refuse {fd : Nat} (haccept : s.accept = .refusing fd) :
    Inv { s.close fd with accept := .looping } := by
  obtain ⟨hclient, hreturned, c, hc, hopen, hgreeted⟩ := h.accepted fd (by rw [haccept]; rfl)
  rw [haccept] at hgreeted
  have hself := sockets_close_self hc
  refine ⟨?_, nofun, ?_, ?_, ?_, ?_, h.answered⟩
  · intro other hother
    have hne : other ≠ fd := fun heq => hclient (heq ▸ hother)
    obtain ⟨c', part, hc', hrest⟩ := h.client other hother
    exact ⟨c', part, (sockets_close_of_ne hne).trans hc', hrest⟩
  · exact forall_sockets hself sockets_close_of_ne
      (fun _ => .inl ⟨hgreeted, linesOn_eq_nil _ _ hreturned⟩) fun other c' _ => h.closed other c'
  · refine forall_sockets hself sockets_close_of_ne nofun fun other c' hne hc' hopen' => ?_
    have howned := h.owned other c' hc' hopen'
    rw [haccept] at howned
    exact howned.imp_right fun hfd => absurd (Option.some.inj hfd).symm hne
  · intro holder hmutex
    have hholder := h.holder holder hmutex
    refine ⟨hholder.outgoing, hholder.live, fun other hother => ⟨?_, nofun⟩⟩
    exact (hholder.known other hother).1.trans_eq length_sockets_close.symm
  · exact fun r hr other hother => (h.known r hr other hother).trans_eq length_sockets_close.symm

end Accepting

section Locked

variable {s : State} (h : Inv s)

include h

/-- `close_client_locked`, for a call that then has no use for the connection, or for a
thread that has the mutex by itself. -/
theorem Inv.closeClient (mutex : Option Holder)
    (hadded : ∀ part, Added s.mutex part → Incomplete part)
    (hholder : ∀ holder, mutex = some holder → holder.stage.live = false ∧ HolderInv s holder) :
    Inv { s.closeClient with mutex := mutex } := by
  cases hclient : s.writeFd with
  | none =>
    rw [State.closeClient, hclient]
    refine ⟨?_, h.accepted, h.closed, h.owned, ?_, h.known, h.answered⟩
    · intro fd hfd
      cases hclient.symm.trans hfd
    · intro holder hmutex
      have hinv := (hholder holder hmutex).2
      exact ⟨hinv.outgoing, hinv.live, hinv.known⟩
  | some fd =>
    rw [State.closeClient, hclient]
    obtain ⟨c, part, hc, hopen, hbytes, hpart⟩ := h.client fd hclient
    have hself := sockets_close_self hc
    refine ⟨nofun, ?_, ?_, ?_, ?_, ?_, h.answered⟩
    · intro other hother
      obtain ⟨hne, hreturned, c', hc', hrest⟩ := h.accepted other hother
      have hfd : other ≠ fd := fun heq => hne (heq ▸ hclient)
      exact ⟨nofun, hreturned, c', (sockets_close_of_ne hfd).trans hc', hrest⟩
    · exact forall_sockets hself sockets_close_of_ne
        (fun _ => .inr ⟨part, hadded part hpart, hbytes⟩) fun other c' _ => h.closed other c'
    · refine forall_sockets hself sockets_close_of_ne nofun fun other c' hne hc' hopen' => ?_
      refine .inr ((h.owned other c' hc' hopen').resolve_left fun hfd => hne ?_)
      exact Option.some.inj (hfd.symm.trans hclient)
    · intro holder hmutex
      obtain ⟨hlive, hinv⟩ := hholder holder hmutex
      refine ⟨hinv.outgoing, fun hlive' => ?_, fun other hother => ?_⟩
      · cases hlive.symm.trans hlive'
      · change other < (s.close fd).sockets.length ∧ _
        rw [length_sockets_close]
        exact hinv.known other hother
    · exact fun r hr other hother => (h.known r hr other hother).trans_eq length_sockets_close.symm

theorem Inv.clear (hmutex : s.mutex = none) : Inv s.closeClient := by
  have hclosed := h.closeClient none (fun part hpart => ?_) nofun
  · have hsame : { s.closeClient with mutex := none } = s.closeClient := by
      rw [← hmutex, ← closeClient_mutex]
    exact hsame ▸ hclosed
  · rw [hmutex] at hpart
    obtain rfl : part = [] := hpart
    exact incomplete_nil

theorem Inv.publish {fd : Nat} (hmutex : s.mutex = none) (hclient : s.writeFd = none)
    (haccept : s.accept = .publishing fd) :
    Inv { s with writeFd := some fd, accept := .looping } := by
  obtain ⟨-, hreturned, c, hc, hopen, hgreeted⟩ := h.accepted fd (by rw [haccept]; rfl)
  rw [haccept] at hgreeted
  refine ⟨?_, nofun, h.closed, ?_, ?_, h.known, h.answered⟩
  · rintro other ⟨rfl⟩
    refine ⟨c, [], hc, hopen, ?_, ?_⟩
    · change c.bytes = ping ++ (linesOn s.returned fd).flatten ++ []
      rw [linesOn_eq_nil _ _ hreturned]
      exact hgreeted
    · change Added s.mutex []
      rw [hmutex]
      rfl
  · intro other c' hc' hopen'
    have howned := h.owned other c' hc' hopen'
    rw [hclient, haccept] at howned
    exact .inl (howned.resolve_left nofun)
  · intro holder hheld
    cases hmutex.symm.trans hheld

theorem Inv.proceed (holder : Holder) (hadded : ∀ part, Added s.mutex part → Added (some holder) part)
    (hholder : HolderInv s holder) : Inv { s with mutex := some holder } where
  client := by
    intro fd hfd
    obtain ⟨c, part, hc, hopen, hbytes, hpart⟩ := h.client fd hfd
    exact ⟨c, part, hc, hopen, hbytes, hadded part hpart⟩
  accepted := h.accepted
  closed := h.closed
  owned := h.owned
  holder := by
    rintro _ ⟨rfl⟩
    exact ⟨hholder.outgoing, hholder.live, hholder.known⟩
  known := h.known
  answered := h.answered

/-- The call that has the mutex writes, on a connection on which its line is not begun. -/
theorem Inv.transmit {holder : Holder} {fd : Nat} (hmutex : s.mutex = some holder)
    (hclient : s.writeFd = some fd) (hbegin : ∀ part, Added s.mutex part → part = [])
    (bytes : Bytes) (stage : Stage) (hadded : Added (some { holder with stage := stage }) bytes)
    (hstage : stage.connection = some fd) :
    Inv { s.write fd bytes with mutex := some { holder with stage := stage } } := by
  obtain ⟨c, part, hc, hopen, hbytes, hpart⟩ := h.client fd hclient
  obtain rfl := hbegin part hpart
  have hself := sockets_write_self hc bytes
  have hholder := h.holder holder hmutex
  have haccept : s.accept.connection ≠ some fd := fun hfd => (h.accepted fd hfd).1 hclient
  refine ⟨?_, ?_, ?_, ?_, ?_, ?_, h.answered⟩
  · intro other hother
    obtain rfl : fd = other := Option.some.inj (hclient.symm.trans hother)
    refine ⟨_, bytes, hself, hopen, ?_, hadded⟩
    rw [hbytes, List.append_nil]
    rfl
  · intro other hother
    obtain ⟨hne, hreturned, c', hc', hrest⟩ := h.accepted other hother
    have hfd : other ≠ fd := fun heq => hne (heq ▸ hclient)
    exact ⟨hne, hreturned, c', (sockets_write_of_ne hfd).trans hc', hrest⟩
  · exact forall_sockets hself sockets_write_of_ne
      (fun hclosed => nomatch hopen.symm.trans hclosed) fun other c' _ => h.closed other c'
  · exact forall_sockets hself sockets_write_of_ne (fun _ => .inl hclient)
      fun other c' _ => h.owned other c'
  · rintro _ ⟨rfl⟩
    refine ⟨hholder.outgoing, fun _ => ⟨fd, hstage, hclient⟩, fun other hother => ?_⟩
    obtain rfl : fd = other := Option.some.inj (hstage.symm.trans hother)
    change fd < (s.write fd bytes).sockets.length ∧ _
    rw [length_sockets_write]
    exact ⟨(List.getElem?_eq_some_iff.mp hc).1, haccept⟩
  · exact fun r hr other hother => (h.known r hr other hother).trans_eq length_sockets_write.symm

theorem Inv.leave {holder : Holder} {connection : Option Nat} {result : Bool}
    (hmutex : s.mutex = some holder) (hstage : holder.stage = .leave connection result) :
    Inv { s with
      mutex := none, returned := s.returned ++ [⟨holder.call, connection, result⟩] } := by
  have hholder := h.holder holder hmutex
  have hknown : ∀ fd, connection = some fd →
      fd < s.sockets.length ∧ s.accept.connection ≠ some fd := by
    intro fd hfd
    exact hholder.known fd (by rw [hstage]; exact hfd)
  have hlive : result = true → ∃ fd, connection = some fd ∧ s.writeFd = some fd := by
    intro hresult
    have hlive := hholder.live (by rw [hstage]; exact hresult)
    rwa [hstage] at hlive
  refine ⟨?_, ?_, ?_, h.owned, nofun, ?_, ?_⟩
  · intro fd hfd
    obtain ⟨c, part, hc, hopen, hbytes, hpart⟩ := h.client fd hfd
    rw [hmutex, Added, hstage] at hpart
    refine ⟨c, [], hc, hopen, ?_, rfl⟩
    rw [List.append_nil, hbytes]
    cases result with
    | false =>
      obtain rfl : part = [] := by cases connection <;> exact hpart
      rw [linesOn_append_done _ _ _ _ (.inl rfl), List.append_nil]
    | true =>
      obtain ⟨fd', rfl, hclient⟩ := hlive rfl
      obtain rfl : fd = fd' := Option.some.inj (hfd.symm.trans hclient)
      obtain rfl : part = holder.line := hpart
      rw [linesOn_append_line _ _ _ hholder.outgoing, List.flatten_append, List.flatten_singleton,
        List.append_assoc]
  · intro fd hfd
    obtain ⟨hne, hreturned, hrest⟩ := h.accepted fd hfd
    refine ⟨hne, fun r hr => ?_, hrest⟩
    obtain hr | hr := List.mem_append.mp hr
    · exact hreturned r hr
    · obtain rfl := List.mem_singleton.mp hr
      exact fun hconnection => (hknown fd hconnection).2 hfd
  · intro fd c hc hclosed
    have hleft := h.closed fd c hc hclosed
    -- A call that returns true has its connection open.
    have hsame : linesOn (s.returned ++ [⟨holder.call, connection, result⟩]) fd =
        linesOn s.returned fd := by
      apply linesOn_append_done
      cases result with
      | false => exact .inl rfl
      | true =>
        refine .inr fun hfd => ?_
        obtain ⟨fd', hfd', hclient⟩ := hlive rfl
        obtain rfl : fd = fd' := Option.some.inj (hfd.symm.trans hfd')
        obtain ⟨c', part, hc', hopen, -⟩ := h.client fd hclient
        obtain rfl := Option.some.inj (hc.symm.trans hc')
        cases hclosed.symm.trans hopen
    rw [Left, hsame]
    exact hleft
  · intro r hr fd hfd
    obtain hr | hr := List.mem_append.mp hr
    · exact h.known r hr fd hfd
    · obtain rfl := List.mem_singleton.mp hr
      exact (hknown fd hfd).1
  · intro r hr hresult
    obtain hr | hr := List.mem_append.mp hr
    · exact h.answered r hr hresult
    · obtain rfl := List.mem_singleton.mp hr
      obtain ⟨fd, hfd, -⟩ := hlive hresult
      refine .inr ⟨?_, fun hnone => nomatch hnone.symm.trans hfd⟩
      rw [Call.line?, hholder.outgoing]
      exact Option.some_ne_none _

end Locked

theorem Inv.done {s : State} (h : Inv s) {call : Call} {result : Bool}
    (hcall : call.outgoing = .done result) :
    Inv { s with returned := s.returned ++ [⟨call, none, result⟩] } := by
  have hsame : ∀ fd, linesOn (s.returned ++ [⟨call, none, result⟩]) fd = linesOn s.returned fd :=
    fun fd => linesOn_append_done _ _ _ _ (.inr nofun)
  refine ⟨?_, ?_, ?_, h.owned, ?_, ?_, ?_⟩
  · intro fd hfd
    rw [hsame fd]
    exact h.client fd hfd
  · intro fd hfd
    obtain ⟨hne, hreturned, hrest⟩ := h.accepted fd hfd
    refine ⟨hne, fun r hr => ?_, hrest⟩
    obtain hr | hr := List.mem_append.mp hr
    · exact hreturned r hr
    · obtain rfl := List.mem_singleton.mp hr
      exact nofun
  · intro fd c hc hclosed
    rw [Left, hsame fd]
    exact h.closed fd c hc hclosed
  · intro holder hmutex
    have hholder := h.holder holder hmutex
    exact ⟨hholder.outgoing, hholder.live, hholder.known⟩
  · intro r hr fd hfd
    obtain hr | hr := List.mem_append.mp hr
    · exact h.known r hr fd hfd
    · obtain rfl := List.mem_singleton.mp hr
      cases hfd
  · intro r hr hresult
    obtain hr | hr := List.mem_append.mp hr
    · exact h.answered r hr hresult
    · obtain rfl := List.mem_singleton.mp hr
      obtain rfl : result = true := hresult
      exact .inl hcall

end GuestInputSender
end MacMu
