import Squib.Lib.Fair
import Squib.Vsock.Credit

/-!
# A stream that the guest closes
-/

namespace Squib.Muxer

open VsockDevice (VsockOp VsockHeader VsockPacket)
open Run (Exec)

/-! ## The tasks under a scheduler -/

def Reader.Parked : Reader → Prop
  | .waiting woken => woken = false
  | .reading _ => True
  | _ => False

def ReaderReady (s : State) : Prop := ¬ s.reader.Parked ∧ s.reader ≠ .done

def WriterReady (s : State) : Prop :=
  match s.writer with
  | .unborn | .finished => False
  | .idle => s.channel ≠ [] ∨ s.entry = none
  | .writing _ => True

namespace Event

def OfReader : Event → Prop
  | .timeout | .ack _ | .reader _ => True
  | _ => False

def OfWriter : Event → Prop
  | .writer _ => True
  | _ => False

end Event

structure FairScheduler {addr : Addr} (x : Exec (step addr)) : Prop where
  reader : x.Fair ReaderReady Event.OfReader
  writer : x.Fair WriterReady Event.OfWriter
  device : x.Fair (fun s => s.device ≠ []) (· = .device)

/-! ## After the entry was removed -/

def Reader.stepsLeft : Reader → ℕ
  | .done => 0
  | .refused | .top | .armed _ | .sizing | .counting _ | .removing => 1
  | .connecting | .arming | .waiting _ | .pushing _ _ | .shuttingDown _ => 2
  | .ending => 3
  | .reading _ => 4

structure Detached (s : State) : Prop where
  entry : s.entry = none
  reader : ¬ s.reader.Parked

section Detached

variable {addr : Addr} {s s' : State}

theorem State.live_eq_none (h : s.entry = none) : s.live = none := by
  rw [State.live, h, Option.filter_none]

theorem State.notify_entry (s : State) : s.notify.entry = s.entry := by
  unfold State.notify
  split <;> rfl

theorem handleTx_of_entry_eq_none (pkt : VsockPacket) (h : s.entry = none) :
    (handleTx addr pkt s).2 = s := by
  have hset : s.setEntry none = s := by rw [← h]; rfl
  unfold handleTx
  cases pkt.hdr.op <;> simp only [h, hset]

theorem foldl_push_eq (pkts : List VsockPacket) (s : State) :
    ∃ rxQueue pushed, pkts.foldl State.push s = { s with rxQueue, pushed } := by
  induction pkts generalizing s with
  | nil => exact ⟨s.rxQueue, s.pushed, rfl⟩
  | cons pkt pkts ih => exact ih (s.push pkt)

variable {e : Event}

theorem other_step (h : s.entry = none) (he : ¬ e.OfReader) (hstep : step addr s e = some s') :
    s'.entry = none ∧ (s'.reader = s.reader ∨ s'.reader = s.notify.reader) := by
  cases e with
  | guest pkt consumed =>
    simp only [step] at hstep
    split_ifs at hstep
    rw [handleTx_of_entry_eq_none pkt (s := s.record pkt consumed) h] at hstep
    obtain ⟨rxQueue, pushed, hpush⟩ := foldl_push_eq
      (handleTx addr pkt (s.record pkt consumed)).1 (s.record pkt consumed)
    rw [hpush, Option.some.injEq] at hstep
    subst hstep
    exact ⟨h, .inl rfl⟩
  | device =>
    simp only [step, deviceStep] at hstep
    split at hstep
    · cases hstep
    · cases hstep; exact ⟨h, .inl rfl⟩
    · cases hstep; exact ⟨h, .inl rfl⟩
    · cases hstep; exact ⟨(State.notify_entry s).trans h, .inr rfl⟩
  | writer n =>
    simp only [step, writerStep] at hstep
    split at hstep
    · cases hstep
    · split at hstep
      · cases hstep; exact ⟨h, .inl rfl⟩
      · split_ifs at hstep; cases hstep; exact ⟨h, .inl rfl⟩
    · split_ifs at hstep <;> cases hstep <;> exact ⟨h, .inl rfl⟩
    · cases hstep
  | deliver =>
    simp only [step] at hstep
    split at hstep
    · cases hstep
    · cases hstep; exact ⟨h, .inl rfl⟩
  | timeout | ack ok | reader input => exact absurd trivial he

theorem entry_eq_none_step (h : s.entry = none) (hstep : step addr s e = some s') :
    s'.entry = none := by
  cases e with
  | timeout =>
    simp only [step] at hstep
    split_ifs at hstep
    cases hstep; exact h
  | ack ok =>
    simp only [step] at hstep
    split_ifs at hstep <;> cases hstep <;> exact h
  | reader input =>
    simp only [step, readerStep, State.live_eq_none h] at hstep
    split at hstep
    all_goals
      try split_ifs at hstep
      all_goals cases hstep <;> first | exact h | rfl
  | _ =>
    refine (other_step h ?_ hstep).1
    exact id

theorem Detached.other (h : Detached s) (he : ¬ e.OfReader) (hstep : step addr s e = some s') :
    Detached s' ∧ s'.reader.stepsLeft = s.reader.stepsLeft := by
  have hreader := h.reader
  obtain ⟨hentry, hr | hr⟩ := other_step h.entry he hstep
  · exact ⟨⟨hentry, hr ▸ hreader⟩, by rw [hr]⟩
  · unfold State.notify at hr
    split at hr
    · exact ⟨⟨hentry, hr ▸ id⟩, by simp [State.goto, Reader.stepsLeft, *]⟩
    · exact ⟨⟨hentry, hr ▸ fun h => Bool.noConfusion h⟩, by simp [State.goto, Reader.stepsLeft, *]⟩
    · exact ⟨⟨hentry, hr ▸ hreader⟩, by rw [hr]⟩

theorem Detached.own (h : Detached s) (he : e.OfReader) (hstep : step addr s e = some s') :
    Detached s' ∧ s'.reader.stepsLeft < s.reader.stepsLeft := by
  have hlive := State.live_eq_none h.entry
  have hreader := h.reader
  cases e with
  | timeout =>
    simp only [step] at hstep
    split_ifs at hstep with hc
    cases hstep
    exact ⟨⟨h.entry, id⟩, by simp [State.goto, Reader.stepsLeft, hc.1]⟩
  | ack ok =>
    simp only [step] at hstep
    split_ifs at hstep with hc hok
    · cases hstep; exact ⟨⟨h.entry, id⟩, by simp [Reader.stepsLeft, hc.1]⟩
    · cases hstep; exact ⟨⟨h.entry, id⟩, by simp [State.goto, Reader.stepsLeft, hc.1]⟩
  | reader input =>
    simp only [step, readerStep, hlive] at hstep
    cases hr : s.reader with
    | reading chunk => exact absurd (hr ▸ trivial) hreader
    | waiting woken =>
      simp only [hr] at hstep
      split_ifs at hstep
      cases hstep
      exact ⟨⟨h.entry, id⟩, by simp [State.goto, Reader.stepsLeft]⟩
    | connecting => simp [hr] at hstep
    | done => simp [hr] at hstep
    | _ =>
      simp only [hr, Option.some.injEq] at hstep
      subst hstep
      exact ⟨⟨by first | exact h.entry | rfl, id⟩, by simp [State.goto, Reader.stepsLeft]⟩
  | guest pkt consumed | device | writer n | deliver => exact absurd he id

theorem Detached.ends {x : Exec (step addr)} (hfair : x.Fair ReaderReady Event.OfReader) {n : ℕ}
    (h : Detached (x.state n)) : ∃ m ≥ n, (x.state m).reader = .done := by
  refine Exec.eventually (C := fun _ _ => True) (fun _ _ _ => trivial) hfair Detached
    (fun s => s.reader = .done) (fun s => s.reader.stepsLeft)
    (fun s hs hdone => ⟨hs.reader, hdone⟩) ?_ ?_ h
  · intro s e s' hs _ _ hstep
    by_cases he : e.OfReader
    · exact ⟨(hs.own he hstep).1, (hs.own he hstep).2.le⟩
    · exact ⟨(hs.other he hstep).1, (hs.other he hstep).2.le⟩
  · intro s e s' hs _ _ he hstep
    exact (hs.own he hstep).2

end Detached

section Parked

variable {addr : Addr} {s s' : State}

def writerStepsLeft (s : State) : ℕ :=
  3 * s.channel.length + match s.writer with
    | .unborn | .finished => 0
    | .idle => 1
    | .writing rest => if rest = [] then 2 else 3

theorem exists_writer_step (addr : Addr) (hentry : s.entry = none) (hready : WriterReady s) :
    ∃ e s', step addr s e = some s' ∧
      (s'.entry = none ∧ s'.device = s.device ∧ s'.reader = s.reader) ∧
      writerStepsLeft s' < writerStepsLeft s := by
  cases hw : s.writer with
  | unborn | finished => simp [WriterReady, hw] at hready
  | idle =>
    cases hc : s.channel with
    | nil =>
      refine ⟨.writer 1, s.dropReceiver, by simp [step, writerStep, hw, hc, hentry], ?_⟩
      exact ⟨⟨hentry, rfl, rfl⟩, by simp [writerStepsLeft, State.dropReceiver, hw]⟩
    | cons payload channel =>
      refine ⟨.writer 1, { s with writer := .writing payload, channel },
        by simp [step, writerStep, hw, hc], ⟨hentry, rfl, rfl⟩, ?_⟩
      simp only [writerStepsLeft, hw, hc, List.length_cons]
      split_ifs <;> omega
  | writing rest =>
    by_cases hrest : rest = []
    · refine ⟨.writer 1, { s with writer := .idle }, by simp [step, writerStep, hw, hrest],
        ⟨hentry, rfl, rfl⟩, ?_⟩
      simp [writerStepsLeft, hw, hrest]
    · refine ⟨.writer rest.length, { s with
        writer := .writing (rest.drop rest.length), written := s.written + rest.length },
        by simp [step, writerStep, hw, hrest], ⟨hentry, rfl, rfl⟩, ?_⟩
      simp [writerStepsLeft, hw, hrest]

theorem exists_parked_execution (addr : Addr) (hentry : s.entry = none) (hdevice : s.device = [])
    (hparked : s.reader.Parked) :
    ∃ x : Exec (step addr), x.state 0 = s ∧ FairScheduler x ∧
      ∀ n, (x.state n).reader = s.reader := by
  obtain ⟨es, s', hrun, halong, hs', hwriter⟩ : ∃ es s', Run.run (step addr) es s = some s' ∧
      Run.Along (step addr)
        (fun t _ => t.entry = none ∧ t.device = s.device ∧ t.reader = s.reader) es s ∧
      (s'.entry = none ∧ s'.device = s.device ∧ s'.reader = s.reader) ∧ ¬ WriterReady s' := by
    refine Run.exists_run_of_rank writerStepsLeft ?_ ⟨hentry, rfl, rfl⟩
    rintro t ⟨ht, hd, hr⟩ hready
    obtain ⟨e, t', hstep, ⟨ht', hd', hr'⟩, hlt⟩ := exists_writer_step addr ht hready
    exact ⟨e, t', hstep, ⟨ht', hd'.trans hd, hr'.trans hr⟩, hlt⟩
  refine ⟨.pad (step addr) es s, Exec.pad_state_zero es s, ⟨?_, ?_, ?_⟩, fun n => ?_⟩
  · exact Exec.fair_pad hrun fun h => h.1 (hs'.2.2 ▸ hparked)
  · exact Exec.fair_pad hrun hwriter
  · exact Exec.fair_pad hrun fun h => h (hs'.2.1.trans hdevice)
  · exact (Exec.pad_state_of_along halong hrun hs' n).2.2

end Parked

/-! ## The packet that closes the stream -/

section Closing

variable {addr : Addr} {s s' : State} {pkt : VsockPacket} {consumed : ℕ}

theorem closing_step (hop : pkt.hdr.op = .shutdown ∨ pkt.hdr.op = .rst)
    (hstep : step addr s (.guest pkt consumed) = some s') :
    s'.entry = none ∧ s'.device = [] ∧ s'.reader = s.reader := by
  simp only [step] at hstep
  split at hstep
  case isFalse => cases hstep
  case isTrue hdevice =>
    have htx : handleTx addr pkt (s.record pkt consumed) =
        ([], (s.record pkt consumed).setEntry none) := by
      unfold handleTx
      rcases hop with hop | hop <;> rw [hop]
    rw [htx, Option.some.injEq] at hstep
    subst hstep
    exact ⟨rfl, hdevice, rfl⟩

/-- **The reader ends after the stream was closed**, in every fair execution, if and only if it was
not parked when the packet came. -/
theorem reader_ends_iff (hop : pkt.hdr.op = .shutdown ∨ pkt.hdr.op = .rst)
    (hstep : step addr s (.guest pkt consumed) = some s') :
    (∀ x : Exec (step addr), x.state 0 = s' → FairScheduler x →
      ∃ n, (x.state n).reader = .done) ↔ ¬ s.reader.Parked := by
  obtain ⟨hentry, hdevice, hreader⟩ := closing_step hop hstep
  constructor
  · intro hends hparked
    obtain ⟨x, hx, hfair, hstays⟩ :=
      exists_parked_execution addr hentry hdevice (hreader ▸ hparked)
    obtain ⟨n, hn⟩ := hends x hx hfair
    rw [hstays n, hreader] at hn
    rw [hn] at hparked
    exact hparked
  · intro hparked x hx hfair
    have hdetached : Detached (x.state 0) := hx ▸ ⟨hentry, hreader ▸ hparked⟩
    obtain ⟨n, -, hn⟩ := hdetached.ends hfair.reader
    exact ⟨n, hn⟩

section Scenario

theorem reader_ends_iff_at_once :
    ∃ s s', Run.run (step sampleAddr) (opened.take 4) (init sampleAddr) = some s ∧
      step sampleAddr s (guestSends .shutdown [] 0) = some s' ∧
      ∀ x : Exec (step sampleAddr), x.state 0 = s' → FairScheduler x →
        ∃ n, (x.state n).reader = .done := by
  obtain ⟨s, hs, hreader, hsome⟩ : ∃ s ∈ Run.run (step sampleAddr) (opened.take 4) (init sampleAddr),
      s.reader = .top ∧ (step sampleAddr s (guestSends .shutdown [] 0)).isSome := by decide +kernel
  obtain ⟨s', hs'⟩ := Option.isSome_iff_exists.1 hsome
  exact ⟨s, s', hs, hs', (reader_ends_iff (.inl rfl) hs').2 (by rw [hreader]; nofun)⟩

/-- The guest has used up its buffer and closes the stream; the reader waits for credit for ever. -/
theorem removed_reader_waits_forever :
    ∃ s s', Run.run (step sampleAddr) oneByteEachWay (init sampleAddr) = some s ∧
      step sampleAddr s (guestSends .shutdown [] 0) = some s' ∧ s.entry ≠ none ∧
      s'.entry = none ∧ ∃ x : Exec (step sampleAddr), x.state 0 = s' ∧ FairScheduler x ∧
        ∀ n, (x.state n).reader = .waiting false := by
  obtain ⟨s, hs, hreader, hthere, hsome⟩ : ∃ s ∈ Run.run (step sampleAddr) oneByteEachWay
      (init sampleAddr), s.reader = .waiting false ∧ s.entry ≠ none ∧
        (step sampleAddr s (guestSends .shutdown [] 0)).isSome := by decide +kernel
  obtain ⟨s', hs'⟩ := Option.isSome_iff_exists.1 hsome
  obtain ⟨hentry, hdevice, hsame⟩ := closing_step (.inl rfl) hs'
  obtain ⟨x, hx, hfair, hstays⟩ := exists_parked_execution sampleAddr hentry hdevice
    (by rw [hsame, hreader]; rfl)
  exact ⟨s, s', hs, hs', hthere, hentry, x, hx, hfair, fun n => by rw [hstays n, hsame, hreader]⟩

end Scenario

end Closing

end Squib.Muxer
