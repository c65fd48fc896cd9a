import Squib.Lib.Text
import Squib.Vsock.Backlog
import Squib.Vsock.Removal

/-!
# The bytes that reach the client
-/

namespace Squib.Muxer

open VsockDevice (VsockOp VsockHeader VsockPacket)
open Run (Exec)

/-! ## A connection with its socket -/

namespace Addr

variable (addr : Addr)

def okLine : List UInt8 := Text.bytes ("OK " ++ toString addr.hostPort.toNat ++ "\n")

def rstLine : List UInt8 := Text.bytes ("RST " ++ toString addr.guestPort.toNat ++ "\n")

end Addr

structure Stream where
  conn : State
  line : List UInt8
  socket : List UInt8
  handled : List (List UInt8)

inductive StreamEvent where
  | party (e : Event)
  | greet (n : ℕ)
  deriving DecidableEq

namespace Stream

variable (addr : Addr)

def init : Stream where
  conn := Muxer.init addr
  line := addr.okLine
  socket := []
  handled := []

def written (s : State) : Event → List UInt8
  | .writer n => s.writer.rest.take n
  | _ => []

def payloads (s : State) : Event → List (List UInt8)
  | .guest pkt _ => if pkt.hdr.op = .rw ∧ s.entry ≠ none then [pkt.payload] else []
  | _ => []

def wrote (t : Stream) (n : ℕ) : Stream :=
  { t with line := t.line.drop n, socket := t.socket ++ t.line.take n }

def step (t : Stream) : StreamEvent → Option Stream
  -- the line is written by `greet`
  | .party (.ack _) => none
  | .party e =>
    (Muxer.step addr t.conn e).map fun conn =>
      { conn
        line := if e = .timeout then addr.rstLine else t.line
        socket := t.socket ++ written t.conn e
        handled := t.handled ++ payloads t.conn e }
  | .greet n =>
    if t.conn.reader = .refused then if n ≤ t.line.length then some (t.wrote n) else none
    else if n = 0 then
      (Muxer.step addr t.conn (.ack false)).map fun conn => { t with conn }
    else if n < t.line.length then
      if t.conn.reader = .connecting ∧ t.conn.signalled then some (t.wrote n) else none
    else if n = t.line.length then
      (Muxer.step addr t.conn (.ack true)).map fun conn => { t.wrote n with conn }
    else none

end Stream

/-! ## What the parties do to the channel -/

def ClosedFinished (s : State) : Prop :=
  ∀ c, s.entry = some c → c.closed = true → s.writer = .finished

structure Feeds (s s' : State) (new : List (List UInt8)) : Prop where
  writer : s'.writer = s.writer
  connecting : s'.reader = .connecting ↔ s.reader = .connecting
  refused : s'.reader ≠ .refused
  signalled : s.signalled = true → s'.signalled = true
  closed : ClosedFinished s'
  channel : s.writer ≠ .finished → s'.channel = s.channel ++ new

section Feeds

variable {addr : Addr} {s s' : State}

theorem ClosedFinished.of_live (h : ∀ c, s.entry = some c → c.closed = false) :
    ClosedFinished s := by
  intro c hc hclosed
  rw [h c hc] at hclosed
  cases hclosed

theorem Feeds.same (hrefused : s'.reader ≠ .refused) (hclosed : ClosedFinished s')
    (hconnecting : s'.reader = .connecting ↔ s.reader = .connecting)
    (hwriter : s'.writer = s.writer) (hchannel : s'.channel = s.channel)
    (hsignalled : s.signalled = true → s'.signalled = true) : Feeds s s' [] :=
  ⟨hwriter, hconnecting, hrefused, hsignalled, hclosed, fun _ => by rw [hchannel, List.append_nil]⟩

section HandleTx

variable (hclosed : ClosedFinished s) (hrefused : s.reader ≠ .refused) (pkt : VsockPacket)
  (consumed : ℕ)

include hclosed hrefused

theorem feeds_record : Feeds s (s.record pkt consumed) [] :=
  .same hrefused hclosed Iff.rfl rfl rfl id

variable {c : Connection}

theorem feeds_entry {c' : Connection} (hc : s.entry = some c) (hsame : c'.closed = c.closed)
    (device : List Pending) :
    Feeds s { s.record pkt consumed with entry := some c', device } [] := by
  refine .same hrefused ?_ Iff.rfl rfl rfl id
  intro d hd hclosed'
  cases hd
  exact hclosed c hc (hsame ▸ hclosed')

omit hclosed in
theorem feeds_acceptRw (addr : Addr) (hopen : c.closed = false) :
    Feeds s (acceptRw addr pkt (s.record pkt consumed) c) [pkt.payload] := by
  by_cases hw : s.writer = .finished
  · refine ⟨?_, ?_, ?_, ?_, ?_, fun h => absurd hw h⟩ <;>
      simp_all [acceptRw, State.send, State.record, ClosedFinished]
  · refine ⟨?_, ?_, ?_, ?_, ?_, fun _ => ?_⟩ <;>
      simp_all [acceptRw, State.send, State.record, ClosedFinished, Connection.refresh]

theorem feeds_handleTx :
    Feeds s (handleTx addr pkt (s.record pkt consumed)).2
      (Stream.payloads s (.guest pkt consumed)) := by
  have hrecord := feeds_record hclosed hrefused pkt consumed
  have hentry : (s.record pkt consumed).entry = s.entry := rfl
  simp only [handleTx, Stream.payloads, hentry]
  cases hop : pkt.hdr.op with
  | rw =>
    cases hc : s.entry with
    | none => simpa using hrecord
    | some c =>
      by_cases hcl : c.closed = true
      · simp only [hcl]
        exact { hrecord with channel := fun h => absurd (hclosed c hc hcl) h }
      · simpa [hcl] using feeds_acceptRw hrefused pkt consumed addr
          (by simpa using hcl)
  | response | creditUpdate | creditRequest =>
    cases hc : s.entry with
    | none => simpa using hrecord
    | some c =>
      exact feeds_entry hclosed hrefused pkt consumed hc (by rfl) _
  | request | invalid => simpa using hrecord
  | shutdown | rst => simpa using .same hrefused nofun Iff.rfl rfl rfl id

end HandleTx

theorem State.notify_eq (s : State) : ∃ reader, s.notify = { s with reader } ∧
    (reader = .connecting ↔ s.reader = .connecting) ∧ (reader = .refused ↔ s.reader = .refused) := by
  unfold State.notify
  split
  · exact ⟨_, rfl, by simp [*]⟩
  · exact ⟨_, rfl, by simp [*]⟩
  · exact ⟨s.reader, rfl, Iff.rfl, Iff.rfl⟩

theorem Feeds.goto (hclosed : ClosedFinished s) (hfrom : s.reader ≠ .connecting) {r : Reader}
    (hto : r ≠ .connecting) (hrefused : r ≠ .refused) : Feeds s (s.goto r) [] :=
  .same hrefused hclosed ⟨fun h => absurd h hto, fun h => absurd h hfrom⟩ rfl rfl id

theorem feeds_readerStep (hclosed : ClosedFinished s) (hrefused : s.reader ≠ .refused)
    {input : List UInt8} (hstep : readerStep addr s input = some s') : Feeds s s' [] := by
  have hgoto : ∀ {r : Reader}, some (s.goto r) = some s' → s.reader ≠ .connecting →
      r ≠ .connecting → r ≠ .refused → Feeds s s' [] := by
    intro r hs' hfrom hto hr
    cases hs'
    exact .goto hclosed hfrom hto hr
  cases hr : s.reader with
  | connecting | done => simp [readerStep, hr] at hstep
  | refused => exact absurd hr hrefused
  | top | sizing =>
    simp only [readerStep, hr] at hstep
    split at hstep <;> exact hgoto hstep (by simp [hr]) (by simp) (by simp)
  | arming | ending =>
    simp only [readerStep, hr] at hstep
    exact hgoto hstep (by simp [hr]) (by simp) (by simp)
  | armed woken =>
    simp only [readerStep, hr] at hstep
    split at hstep
    · exact hgoto hstep (by simp [hr]) (by simp) (by simp)
    · split_ifs at hstep <;> exact hgoto hstep (by simp [hr]) (by simp) (by simp)
  | waiting woken =>
    simp only [readerStep, hr] at hstep
    split_ifs at hstep
    exact hgoto hstep (by simp [hr]) (by simp) (by simp)
  | reading chunk =>
    simp only [readerStep, hr] at hstep
    split_ifs at hstep <;> exact hgoto hstep (by simp [hr]) (by simp) (by simp)
  | counting data =>
    simp only [readerStep, hr] at hstep
    split at hstep
    · exact hgoto hstep (by simp [hr]) (by simp) (by simp)
    · next c hlive =>
      cases hstep
      refine .same (by simp) (.of_live fun d hd => ?_) (by simp [hr]) rfl rfl id
      cases hd
      exact (State.live_eq_some.1 hlive).2
  | pushing data fwdCnt | shuttingDown fwdCnt =>
    simp only [readerStep, hr] at hstep
    cases hstep
    exact .same (by simp) hclosed (by simp [hr]) rfl rfl id
  | removing =>
    simp only [readerStep, hr] at hstep
    cases hstep
    refine .same (by simp [State.goto]) (fun c hc => ?_) (by simp [hr, State.goto]) rfl rfl id
    cases hc

theorem feeds_step (hclosed : ClosedFinished s) (hrefused : s.reader ≠ .refused) {e : Event}
    (htimeout : e ≠ .timeout) (hack : ∀ ok, e ≠ .ack ok) (hwriter : ∀ n, e ≠ .writer n)
    (hstep : step addr s e = some s') : Feeds s s' (Stream.payloads s e) := by
  cases e with
  | timeout => exact absurd rfl htimeout
  | ack ok => exact absurd rfl (hack ok)
  | writer n => exact absurd rfl (hwriter n)
  | guest pkt consumed =>
    simp only [step] at hstep
    split_ifs at hstep
    obtain ⟨rxQueue, pushed, hpush⟩ := foldl_push_eq
      (handleTx addr pkt (s.record pkt consumed)).1 (handleTx addr pkt (s.record pkt consumed)).2
    rw [hpush, Option.some.injEq] at hstep
    subst hstep
    exact { feeds_handleTx hclosed hrefused pkt consumed with }
  | device =>
    simp only [step, deviceStep] at hstep
    split at hstep
    · cases hstep
    · cases hstep; exact .same hrefused hclosed Iff.rfl rfl rfl id
    · cases hstep; exact .same hrefused hclosed Iff.rfl rfl rfl fun _ => rfl
    · obtain ⟨reader, hnotify, hconnecting, hr⟩ := s.notify_eq
      rw [hnotify] at hstep
      cases hstep
      exact .same (fun h => hrefused (hr.1 h)) hclosed hconnecting rfl rfl id
  | reader input => exact feeds_readerStep hclosed hrefused hstep
  | deliver =>
    simp only [step] at hstep
    split at hstep
    · cases hstep
    · cases hstep; exact .same hrefused hclosed Iff.rfl rfl rfl id

end Feeds

/-! ## The order of the bytes -/

namespace Stream

structure InOrder (addr : Addr) (t : Stream) : Prop where
  refused : t.conn.reader ≠ .refused
  unborn : t.conn.reader = .connecting ↔ t.conn.writer = .unborn
  line : t.conn.writer ≠ .unborn → t.conn.writer ≠ .finished → t.line = []
  closed : ClosedFinished t.conn
  running : t.conn.writer ≠ .finished → ∃ taken, t.handled = taken ++ t.conn.channel ∧
    t.socket ++ t.line ++ t.conn.writer.rest = addr.okLine ++ taken.flatten
  ordered : t.socket <+: addr.okLine ++ t.handled.flatten

section Steps

variable {addr : Addr} {t t' : Stream}

theorem inOrder_init : InOrder addr (init addr) where
  refused := nofun
  unborn := ⟨fun _ => rfl, fun _ => rfl⟩
  line h := absurd rfl h
  closed c hc hclosed := by
    cases hc
    cases hclosed
  running _ := ⟨[], rfl, by simp [init, Muxer.init, State.push, Writer.rest]⟩
  ordered := List.nil_prefix

variable {socket : List UInt8} {taken channel : List (List UInt8)} {s' : State} {n : ℕ}

theorem ordered_of_taken {line rest : List UInt8} {handled : List (List UInt8)}
    (hhandled : handled = taken ++ channel)
    (hbytes : socket ++ line ++ rest = addr.okLine ++ taken.flatten) :
    socket <+: addr.okLine ++ handled.flatten := by
  refine ⟨line ++ rest ++ channel.flatten, ?_⟩
  rw [hhandled, List.flatten_append, ← List.append_assoc addr.okLine, ← hbytes]
  simp

theorem InOrder.feeds (h : InOrder addr t) {new : List (List UInt8)} (hfeeds : Feeds t.conn s' new) :
    InOrder addr { t with conn := s', handled := t.handled ++ new } where
  refused := hfeeds.refused
  unborn := by rw [hfeeds.connecting, hfeeds.writer, h.unborn]
  line := by rw [hfeeds.writer]; exact h.line
  closed := hfeeds.closed
  running hw := by
    rw [hfeeds.writer] at hw ⊢
    obtain ⟨taken, hhandled, hbytes⟩ := h.running hw
    exact ⟨taken, by rw [hhandled, hfeeds.channel hw, List.append_assoc], hbytes⟩
  ordered := by
    rw [List.flatten_append, ← List.append_assoc]
    exact h.ordered.trans (List.prefix_append _ _)

theorem InOrder.dropReceiver (h : InOrder addr t) {reader : Reader} (hrefused : reader ≠ .refused)
    (hconnecting : reader ≠ .connecting) :
    InOrder addr { t with conn := { t.conn.dropReceiver with reader } } where
  refused := hrefused
  unborn := ⟨fun hr => absurd hr hconnecting, nofun⟩
  line _ hw := absurd rfl hw
  closed _ _ _ := rfl
  running hw := absurd rfl hw
  ordered := h.ordered

theorem InOrder.advance (h : InOrder addr t) (hborn : t.conn.writer ≠ .unborn)
    (hrun : t.conn.writer ≠ .finished) {w : Writer} (hw : w ≠ .unborn) (written : ℕ)
    (hhandled : t.handled = taken ++ channel)
    (hbytes : socket ++ w.rest = addr.okLine ++ taken.flatten) :
    InOrder addr { t with conn := { t.conn with writer := w, channel, written }, socket } where
  refused := h.refused
  unborn := ⟨fun hr => absurd (h.unborn.1 hr) hborn, fun hw' => absurd hw' hw⟩
  line _ _ := h.line hborn hrun
  closed c hc hcl := absurd (h.closed c hc hcl) hrun
  running _ := ⟨taken, hhandled, by rw [h.line hborn hrun, List.append_nil, hbytes]⟩
  ordered := by
    have hbytes' : socket ++ [] ++ w.rest = addr.okLine ++ taken.flatten := by
      rw [List.append_nil, hbytes]
    exact ordered_of_taken hhandled hbytes'

theorem InOrder.writer (h : InOrder addr t) (hstep : writerStep t.conn n = some s') :
    InOrder addr { t with conn := s', socket := t.socket ++ written t.conn (.writer n) } := by
  have hborn : t.conn.writer ≠ .unborn := fun hw => by simp [writerStep, hw] at hstep
  have hrun : t.conn.writer ≠ .finished := fun hw => by simp [writerStep, hw] at hstep
  have hdrop : InOrder addr { t with conn := t.conn.dropReceiver } :=
    h.dropReceiver h.refused fun hr => hborn (h.unborn.1 hr)
  obtain ⟨taken, hhandled, hbytes⟩ := h.running hrun
  rw [h.line hborn hrun, List.append_nil] at hbytes
  cases hw : t.conn.writer with
  | unborn => exact absurd hw hborn
  | finished => exact absurd hw hrun
  | idle =>
    simp only [writerStep, hw] at hstep
    simp only [hw, Writer.rest, List.append_nil] at hbytes
    simp only [written, hw, Writer.rest, List.take_nil, List.append_nil]
    split at hstep
    · next payload channel hc =>
      cases hstep
      have hhandled' : t.handled = (taken ++ [payload]) ++ channel := by simp [hhandled, hc]
      refine h.advance hborn hrun (by simp) _ hhandled' ?_
      simp [Writer.rest, hbytes]
    · split_ifs at hstep
      cases hstep
      exact hdrop
  | writing rest =>
    simp only [writerStep, hw] at hstep
    simp only [hw, Writer.rest] at hbytes
    simp only [written, hw, Writer.rest]
    split_ifs at hstep with hrest hn hle
    · cases hstep
      refine h.advance hborn hrun (by simp) _ hhandled ?_
      simpa [hrest, Writer.rest] using hbytes
    · cases hstep
      simpa only [hn, List.take_zero, List.append_nil] using hdrop
    · cases hstep
      refine h.advance hborn hrun (by simp) _ hhandled ?_
      rw [Writer.rest, List.append_assoc, List.take_append_drop, hbytes]

theorem InOrder.wrote (h : InOrder addr t) (hw : t.conn.writer = .unborn) (n : ℕ) :
    InOrder addr (t.wrote n) := by
  obtain ⟨taken, hhandled, hbytes⟩ := h.running (by simp [hw])
  have hbytes' : t.socket ++ t.line.take n ++ t.line.drop n ++ t.conn.writer.rest =
      addr.okLine ++ taken.flatten := by
    rw [List.append_assoc t.socket, List.take_append_drop, hbytes]
  exact { h with
    line := fun hborn => absurd hw hborn
    running := fun _ => ⟨taken, hhandled, hbytes'⟩
    ordered := ordered_of_taken hhandled hbytes' }

theorem InOrder.greet (h : InOrder addr t) (hstep : step addr t (.greet n) = some t') :
    InOrder addr t' := by
  simp only [step, if_neg h.refused] at hstep
  split_ifs at hstep with hn hlt hc heq
  · obtain ⟨conn, hconn, rfl⟩ := Option.map_eq_some_iff.1 hstep
    simp only [Muxer.step, Bool.false_eq_true, if_false] at hconn
    split_ifs at hconn
    cases hconn
    have hdone : Reader.done ≠ .refused := by simp
    exact h.dropReceiver hdone (by simp)
  · cases hstep
    exact h.wrote (h.unborn.1 hc.1) n
  · obtain ⟨conn, hconn, rfl⟩ := Option.map_eq_some_iff.1 hstep
    simp only [Muxer.step] at hconn
    split_ifs at hconn with hc
    cases hconn
    have hunborn := h.unborn.1 hc.1
    have h' := h.wrote hunborn n
    obtain ⟨taken, hhandled, hbytes⟩ := h'.running (by simp [Stream.wrote, hunborn])
    exact { h' with
      refused := by simp
      unborn := ⟨by simp, by simp⟩
      line := fun _ _ => by simp [Stream.wrote, heq]
      closed := fun c hc hcl => absurd (h'.closed c hc hcl) (by simp [Stream.wrote, hunborn])
      running := fun _ =>
        ⟨taken, hhandled, by simpa [Stream.wrote, hunborn, Writer.rest] using hbytes⟩ }

theorem step_other {e : Event} (hwriter : ∀ n, e ≠ .writer n) (htimeout : e ≠ .timeout)
    (h : InOrder addr t) (hstep : step addr t (.party e) = some t') :
    ∃ conn, Muxer.step addr t.conn e = some conn ∧ Feeds t.conn conn (payloads t.conn e) ∧
      t' = { t with conn, handled := t.handled ++ payloads t.conn e } := by
  cases e with
  | ack ok => cases hstep
  | timeout => exact absurd rfl htimeout
  | writer n => exact absurd rfl (hwriter n)
  | _ =>
    obtain ⟨conn, hconn, rfl⟩ := Option.map_eq_some_iff.1 hstep
    refine ⟨conn, hconn, feeds_step h.closed h.refused nofun nofun nofun hconn, ?_⟩
    simp [written]

theorem inOrder_step (h : InOrder addr t) {e : StreamEvent} (htimeout : e ≠ .party .timeout)
    (hstep : step addr t e = some t') : InOrder addr t' := by
  cases e with
  | greet n => exact h.greet hstep
  | party e =>
    by_cases hwriter : ∃ n, e = .writer n
    · obtain ⟨n, rfl⟩ := hwriter
      obtain ⟨conn, hconn, rfl⟩ := Option.map_eq_some_iff.1 hstep
      simpa [payloads] using h.writer hconn
    · obtain ⟨conn, -, hfeeds, rfl⟩ := step_other (fun n hn => hwriter ⟨n, hn⟩)
        (fun he => htimeout (he ▸ rfl)) h hstep
      exact h.feeds hfeeds

end Steps

/-! ## Everything is written in the end -/

def ClientReads (t : Stream) : StreamEvent → Prop
  | .greet n => n ≠ 0
  | .party (.writer n) => t.conn.writer.rest ≠ [] → n ≠ 0
  | _ => True

instance (t : Stream) : ∀ e, Decidable (ClientReads t e)
  | .greet n => inferInstanceAs (Decidable (n ≠ 0))
  | .party (.writer n) => inferInstanceAs (Decidable (t.conn.writer.rest ≠ [] → n ≠ 0))
  | .party (.guest _ _) | .party .device | .party .timeout | .party (.ack _) | .party (.reader _)
  | .party .deliver => .isTrue trivial

structure FairTasks {addr : Addr} (x : Exec (step addr)) : Prop where
  greeter : x.Fair (fun t => t.conn.reader = .connecting ∧ t.conn.signalled = true)
    fun e => ∃ n, e = .greet n
  writer : x.Fair (fun t => WriterReady t.conn) fun e => ∃ n, e = .party (.writer n)

section Progress

variable {addr : Addr} {t t' : Stream} {x : Exec (step addr)} {e : StreamEvent}

theorem step_keeps (h : InOrder addr t) (htimeout : e ≠ .party .timeout)
    (hstep : step addr t e = some t') :
    t.handled <+: t'.handled ∧ (t.conn.signalled = true → t'.conn.signalled = true) ∧
      t'.line.length ≤ t.line.length := by
  cases e with
  | greet n =>
    simp only [step, if_neg h.refused] at hstep
    split_ifs at hstep with hn hlt hc heq
    · obtain ⟨conn, hconn, rfl⟩ := Option.map_eq_some_iff.1 hstep
      simp only [Muxer.step, Bool.false_eq_true, if_false] at hconn
      split_ifs at hconn
      cases hconn
      exact ⟨List.prefix_rfl, id, le_rfl⟩
    · cases hstep
      exact ⟨List.prefix_rfl, id, by simp [wrote]⟩
    · obtain ⟨conn, hconn, rfl⟩ := Option.map_eq_some_iff.1 hstep
      simp only [Muxer.step] at hconn
      split_ifs at hconn
      cases hconn
      exact ⟨List.prefix_rfl, id, by simp [wrote]⟩
  | party e =>
    by_cases hwriter : ∃ n, e = .writer n
    · obtain ⟨n, rfl⟩ := hwriter
      obtain ⟨conn, hconn, rfl⟩ := Option.map_eq_some_iff.1 hstep
      refine ⟨List.prefix_append _ _, fun hs => ?_, le_rfl⟩
      simp only [Muxer.step, writerStep] at hconn
      split at hconn
      · cases hconn
      · split at hconn
        · cases hconn; exact hs
        · split_ifs at hconn; cases hconn; exact hs
      · split_ifs at hconn <;> cases hconn <;> exact hs
      · cases hconn
    · obtain ⟨conn, -, hfeeds, rfl⟩ := step_other (fun n hn => hwriter ⟨n, hn⟩)
        (fun he => htimeout (he ▸ rfl)) h hstep
      exact ⟨List.prefix_append _ _, hfeeds.signalled, le_rfl⟩

variable {n : ℕ}

theorem greet_shortens (h : InOrder addr t) (hn : n ≠ 0) (hstep : step addr t (.greet n) = some t') :
    t'.line.length < t.line.length := by
  simp only [step, if_neg h.refused, if_neg hn] at hstep
  split_ifs at hstep with hlt hc heq
  · cases hstep
    simp only [wrote, List.length_drop]
    omega
  · obtain ⟨conn, hconn, rfl⟩ := Option.map_eq_some_iff.1 hstep
    simp only [wrote, List.length_drop]
    omega

theorem eventually_greeted (hC : x.Always fun t e => e ≠ .party .timeout ∧ ClientReads t e)
    (hfair : FairTasks x) (h : InOrder addr (x.state n))
    (hsignalled : (x.state n).conn.signalled = true) :
    ∃ m ≥ n, (x.state m).conn.writer ≠ .unborn := by
  refine Exec.eventually hC hfair.greeter
    (fun t => InOrder addr t ∧ t.conn.signalled = true) (fun t => t.conn.writer ≠ .unborn)
    (fun t => t.line.length) ?_ ?_ ?_ ⟨h, hsignalled⟩
  · intro t ht hborn
    exact ⟨ht.1.unborn.2 (not_not.1 hborn), ht.2⟩
  · intro t e t' ht _ hC hstep
    have hkeeps := step_keeps ht.1 hC.1 hstep
    exact ⟨⟨inOrder_step ht.1 hC.1 hstep, hkeeps.2.1 ht.2⟩, hkeeps.2.2⟩
  · rintro t e t' ht _ hC ⟨n, rfl⟩ hstep
    exact greet_shortens ht.1 hC.2 hstep

def Complete (addr : Addr) (t : Stream) : Prop :=
  t.conn.writer = .finished → t.conn.entry = none ∧ t.socket = addr.okLine ++ t.handled.flatten

theorem complete_step (h : InOrder addr t) (hcomplete : Complete addr t)
    (hC : e ≠ .party .timeout ∧ ClientReads t e) (hstep : step addr t e = some t') :
    Complete addr t' := by
  intro hw'
  cases e with
  | greet n =>
    simp only [step, if_neg h.refused, if_neg hC.2] at hstep
    split_ifs at hstep with hlt hc heq
    · cases hstep
      have := h.unborn.1 hc.1
      simp [wrote, this] at hw'
    · obtain ⟨conn, hconn, rfl⟩ := Option.map_eq_some_iff.1 hstep
      simp only [Muxer.step] at hconn
      split_ifs at hconn
      cases hconn
      cases hw'
  | party e =>
    by_cases hwriter : ∃ n, e = .writer n
    · obtain ⟨n, rfl⟩ := hwriter
      obtain ⟨conn, hconn, rfl⟩ := Option.map_eq_some_iff.1 hstep
      simp only [Muxer.step, writerStep] at hconn
      split at hconn
      · cases hconn
      · next hw =>
        split at hconn
        · cases hconn
          cases hw'
        · next hc =>
          split_ifs at hconn with hentry
          cases hconn
          obtain ⟨taken, hhandled, hbytes⟩ := h.running (by simp [hw])
          have hline := h.line (by simp [hw]) (by simp [hw])
          refine ⟨hentry, ?_⟩
          simpa [written, payloads, hw, hc, hline, hhandled, Writer.rest] using hbytes
      · next rest hw =>
        split_ifs at hconn with hrest hn
        · cases hconn
          cases hw'
        · exact absurd hn (hC.2 (by simpa [hw, Writer.rest] using hrest))
        · cases hconn
          cases hw'
      · cases hconn
    · obtain ⟨conn, hconn, hfeeds, rfl⟩ := step_other (fun n hn => hwriter ⟨n, hn⟩)
        (fun he => hC.1 (he ▸ rfl)) h hstep
      obtain ⟨hentry, hsocket⟩ := hcomplete (hfeeds.writer ▸ hw')
      have hnone : payloads t.conn e = [] := by
        unfold payloads
        split
        · simp [hentry]
        · rfl
      exact ⟨entry_eq_none_step hentry hconn, by simpa [hnone] using hsocket⟩

def stepsLeft (addr : Addr) (l : List (List UInt8)) (t : Stream) : ℕ :=
  2 * (l.length - (t.handled.length - t.conn.channel.length)) +
    ((addr.okLine ++ l.flatten).length - t.socket.length) +
    match t.conn.writer with
    | .writing _ => 1
    | _ => 0

structure Working (addr : Addr) (l : List (List UInt8)) (t : Stream) : Prop where
  inOrder : InOrder addr t
  born : t.conn.writer ≠ .unborn
  running : t.conn.writer ≠ .finished
  among : l <+: t.handled

variable {l : List (List UInt8)}

theorem Working.idle (h : Working addr l t) (hw : t.conn.writer = .idle) :
    ∃ taken, t.handled = taken ++ t.conn.channel ∧ t.socket = addr.okLine ++ taken.flatten := by
  obtain ⟨taken, hhandled, hbytes⟩ := h.inOrder.running h.running
  refine ⟨taken, hhandled, ?_⟩
  simpa [h.inOrder.line h.born h.running, hw, Writer.rest] using hbytes

theorem Working.exists_payload (h : Working addr l t) (hw : t.conn.writer = .idle)
    (hgoal : ¬ addr.okLine ++ l.flatten <+: t.socket) :
    t.handled.length - t.conn.channel.length < l.length ∧ t.conn.channel ≠ [] := by
  obtain ⟨taken, hhandled, hsocket⟩ := h.idle hw
  have hlt : taken.length < l.length := by
    by_contra hle
    have hl : l <+: taken :=
      List.prefix_of_prefix_length_le h.among (hhandled ▸ List.prefix_append _ _) (by omega)
    obtain ⟨rest, rfl⟩ := hl
    exact hgoal ⟨rest.flatten, by simp [hsocket]⟩
  have hlen := congrArg List.length hhandled
  rw [List.length_append] at hlen
  refine ⟨by omega, fun hnil => ?_⟩
  have := h.among.length_le
  rw [hnil, List.length_nil] at hlen
  omega

theorem Working.socket_lt (h : Working addr l t)
    (hgoal : ¬ addr.okLine ++ l.flatten <+: t.socket) :
    t.socket.length < (addr.okLine ++ l.flatten).length := by
  by_contra hle
  obtain ⟨rest, hrest⟩ := h.among
  have hall : addr.okLine ++ l.flatten <+: addr.okLine ++ t.handled.flatten :=
    ⟨rest.flatten, by simp [← hrest]⟩
  exact hgoal (List.prefix_of_prefix_length_le hall h.inOrder.ordered (by omega))

theorem Working.not_greet (h : Working addr l t) (hstep : step addr t (.greet n) = some t') :
    False := by
  have hr : t.conn.reader ≠ .connecting := fun hr => h.born (h.inOrder.unborn.1 hr)
  simp [step, h.inOrder.refused, Muxer.step, hr] at hstep

theorem Working.writer (h : Working addr l t) (hgoal : ¬ addr.okLine ++ l.flatten <+: t.socket)
    (hreads : ClientReads t (.party (.writer n)))
    (hstep : step addr t (.party (.writer n)) = some t') :
    Working addr l t' ∧ stepsLeft addr l t' < stepsLeft addr l t := by
  have htimeout : StreamEvent.party (.writer n) ≠ .party .timeout := by simp
  have hinOrder := inOrder_step h.inOrder htimeout hstep
  have hamong := h.among.trans (step_keeps h.inOrder htimeout hstep).1
  have hlt := h.socket_lt hgoal
  obtain ⟨conn, hconn, rfl⟩ := Option.map_eq_some_iff.1 hstep
  simp only [Muxer.step] at hconn
  suffices hnew : conn.writer ≠ .unborn ∧ conn.writer ≠ .finished ∧
      stepsLeft addr l ⟨conn, t.line, t.socket ++ written t.conn (.writer n), t.handled⟩ <
        stepsLeft addr l t from
    ⟨⟨hinOrder, hnew.1, hnew.2.1, hamong⟩, by simpa [payloads] using hnew.2.2⟩
  cases hw : t.conn.writer with
  | unborn => exact absurd hw h.born
  | finished => exact absurd hw h.running
  | idle =>
    obtain ⟨htaken, hchannel⟩ := h.exists_payload hw hgoal
    obtain ⟨taken, hhandled, -⟩ := h.idle hw
    have hlen := congrArg List.length hhandled
    obtain ⟨payload, channel, hc⟩ := List.exists_cons_of_ne_nil hchannel
    simp only [writerStep, hw, hc, Option.some.injEq] at hconn
    subst hconn
    refine ⟨by simp, by simp, ?_⟩
    simp only [hc, List.length_append, List.length_cons] at hlen htaken
    simp only [stepsLeft, written, hw, hc, Writer.rest, List.take_nil, List.append_nil,
      List.length_cons]
    omega
  | writing rest =>
    simp only [writerStep, hw] at hconn
    split_ifs at hconn with hrest hn hle
    · cases hconn
      refine ⟨by simp, by simp, ?_⟩
      simp only [stepsLeft, written, hw, hrest, Writer.rest, List.take_nil, List.append_nil]
      omega
    · exact absurd hn (hreads (by simpa [hw, Writer.rest] using hrest))
    · cases hconn
      refine ⟨by simp, by simp, ?_⟩
      simp only [stepsLeft, written, hw, Writer.rest, List.length_append, List.length_take] at hlt ⊢
      omega

theorem Working.other (h : Working addr l t) {e : Event} (hwriter : ∀ n, e ≠ .writer n)
    (htimeout : e ≠ .timeout) (hstep : step addr t (.party e) = some t') :
    Working addr l t' ∧ stepsLeft addr l t' = stepsLeft addr l t := by
  have hinOrder := inOrder_step h.inOrder (fun he => htimeout (by cases he; rfl)) hstep
  obtain ⟨conn, -, hfeeds, rfl⟩ := step_other hwriter htimeout h.inOrder hstep
  refine ⟨⟨hinOrder, hfeeds.writer ▸ h.born, hfeeds.writer ▸ h.running,
    h.among.trans (List.prefix_append _ _)⟩, ?_⟩
  simp only [stepsLeft, hfeeds.writer, hfeeds.channel h.running, List.length_append]
  omega

theorem Working.eventually (hC : x.Always fun t e => e ≠ .party .timeout ∧ ClientReads t e)
    (hfair : FairTasks x) (h : Working addr l (x.state n)) :
    ∃ m ≥ n, addr.okLine ++ l.flatten <+: (x.state m).socket := by
  have hstep : ∀ t e t', Working addr l t → ¬ addr.okLine ++ l.flatten <+: t.socket →
      (e ≠ .party .timeout ∧ ClientReads t e) → step addr t e = some t' →
      Working addr l t' ∧ stepsLeft addr l t' ≤ stepsLeft addr l t := by
    intro t e t' ht hgoal hC hstep
    cases e with
    | greet n => exact (ht.not_greet hstep).elim
    | party e =>
      by_cases hwriter : ∃ n, e = .writer n
      · obtain ⟨n, rfl⟩ := hwriter
        have := ht.writer hgoal hC.2 hstep
        exact ⟨this.1, this.2.le⟩
      · have := ht.other (fun n hn => hwriter ⟨n, hn⟩) (fun he => hC.1 (he ▸ rfl)) hstep
        exact ⟨this.1, this.2.le⟩
  refine Exec.eventually hC hfair.writer (Working addr l)
    (fun t => addr.okLine ++ l.flatten <+: t.socket) (stepsLeft addr l) ?_ hstep ?_ h
  · intro t ht hgoal
    cases hw : t.conn.writer with
    | unborn => exact absurd hw ht.born
    | finished => exact absurd hw ht.running
    | idle => simpa [WriterReady, hw] using Or.inl (ht.exists_payload hw hgoal).2
    | writing rest => simp [WriterReady, hw]
  · rintro t e t' ht hgoal hC ⟨n, rfl⟩ hstep
    exact (ht.writer hgoal hC.2 hstep).2

end Progress

end Stream

section Result

variable {addr : Addr} {x : Exec (Stream.step addr)} (hinit : x.state 0 = Stream.init addr)

include hinit

theorem inOrder_state (htimely : x.Always fun _ e => e ≠ .party .timeout) (n : ℕ) :
    Stream.InOrder addr (x.state n) :=
  Exec.invariant htimely (fun _ _ _ ht he => Stream.inOrder_step ht he) (Nat.zero_le n)
    (hinit ▸ Stream.inOrder_init)

theorem complete_state (hC : x.Always fun t e => e ≠ .party .timeout ∧ Stream.ClientReads t e)
    (n : ℕ) : Stream.Complete addr (x.state n) := by
  have hboth : Stream.InOrder addr (x.state n) ∧ Stream.Complete addr (x.state n) := by
    refine Exec.invariant (I := fun t => Stream.InOrder addr t ∧ Stream.Complete addr t) hC ?_
      (Nat.zero_le n) (hinit ▸ ⟨Stream.inOrder_init, nofun⟩)
    intro t e t' ht he hstep
    exact ⟨Stream.inOrder_step ht.1 he.1 hstep, Stream.complete_step ht.1 ht.2 he hstep⟩
  exact hboth.2

theorem state_keeps (htimely : x.Always fun _ e => e ≠ .party .timeout) {n m : ℕ} (hnm : n ≤ m) :
    (x.state n).handled <+: (x.state m).handled ∧
      ((x.state n).conn.signalled = true → (x.state m).conn.signalled = true) := by
  induction m, hnm using Nat.le_induction with
  | base => exact ⟨List.prefix_rfl, id⟩
  | succ m _ ih =>
    cases he : x.event m with
    | none => rwa [x.idle m he]
    | some e =>
      have hstep := Stream.step_keeps (inOrder_state hinit htimely m) (htimely m e he)
        (x.next m e he)
      exact ⟨ih.1.trans hstep.1, hstep.2.1 ∘ ih.2⟩

/-- **The client gets the line and the payloads, in order and complete.** The guest answered in
time, so the connection's task does not give up. -/
theorem stream_in_order (htimely : x.Always fun _ e => e ≠ .party .timeout) :
    (∀ n, (x.state n).socket <+: addr.okLine ++ (x.state n).handled.flatten) ∧
    (x.Always Stream.ClientReads → Stream.FairTasks x → (∃ n, (x.state n).conn.signalled = true) →
      ∀ n, ∃ m ≥ n, addr.okLine ++ (x.state n).handled.flatten <+: (x.state m).socket) := by
  have hinOrder := inOrder_state hinit htimely
  refine ⟨fun n => (hinOrder n).ordered, ?_⟩
  rintro hreads hfair ⟨k, hk⟩ n
  have hC : x.Always fun t e => e ≠ .party .timeout ∧ Stream.ClientReads t e :=
    fun n e he => ⟨htimely n e he, hreads n e he⟩
  -- first the line is written, and then what the writer task takes from the channel
  obtain ⟨m, hm, hborn⟩ := Stream.eventually_greeted hC hfair (hinOrder (max n k))
    ((state_keeps hinit htimely (Nat.le_max_right n k)).2 hk)
  have hnm : n ≤ m := (Nat.le_max_left n k).trans hm
  have hamong := (state_keeps hinit htimely hnm).1
  by_cases hfinished : (x.state m).conn.writer = .finished
  · obtain ⟨-, hsocket⟩ := complete_state hinit hC m hfinished
    obtain ⟨rest, hrest⟩ := hamong
    exact ⟨m, hnm, rest.flatten, by simp [hsocket, ← hrest]⟩
  · obtain ⟨m', hm', hgoal⟩ := Stream.Working.eventually hC hfair
      ⟨hinOrder m, hborn, hfinished, hamong⟩
    exact ⟨m', hnm.trans hm', hgoal⟩

end Result

section Scenario

def closedAtOnce : List StreamEvent :=
  [.party (guestSends .response [] 0), .party .device, .party .device,
    .party (guestSends .rw [7] 0), .party .device, .party .device,
    .party (guestSends .shutdown [] 0), .greet 3, .greet 5, .party (.reader []),
    .party (.writer 1), .party (.writer 1), .party (.writer 1), .party (.writer 1)]

theorem stream_in_order_closed_at_once :
    ∃ x : Exec (Stream.step sampleAddr), x.state 0 = Stream.init sampleAddr ∧
      ∃ n, Text.bytes "OK 1024\n" ++ [7] <+: (x.state n).socket := by
  obtain ⟨t, hrun, hreader, hwriter, hsignalled, hhandled⟩ :
      ∃ t ∈ Run.run (Stream.step sampleAddr) closedAtOnce (Stream.init sampleAddr),
        t.conn.reader = .done ∧ t.conn.writer = .finished ∧ t.conn.signalled ∧
          t.handled = [[7]] := by
    decide +kernel
  have hend := Exec.pad_state_of_le hrun le_rfl
  have htimely : (Exec.pad (Stream.step sampleAddr) closedAtOnce (Stream.init sampleAddr)).Always
      fun _ e => e ≠ .party .timeout := Exec.always_pad (by decide +kernel)
  have hreads : (Exec.pad (Stream.step sampleAddr) closedAtOnce (Stream.init sampleAddr)).Always
      Stream.ClientReads := Exec.always_pad (by decide +kernel)
  obtain ⟨n, -, hn⟩ := (stream_in_order (Exec.pad_state_zero _ _) htimely).2 hreads
    ⟨Exec.fair_pad hrun (by simp [hreader]), Exec.fair_pad hrun (by simp [WriterReady, hwriter])⟩
    ⟨_, by rw [hend]; exact hsignalled⟩ closedAtOnce.length
  exact ⟨_, Exec.pad_state_zero _ _, n, hn⟩

end Scenario

end Squib.Muxer
