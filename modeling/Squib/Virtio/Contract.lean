import Squib.Virtio.Drain

/-!
# Serving queues by a contract
-/

namespace Squib

open Checked Loop GuestMemory

/-! ## Contracts and traces -/

structure Contract where
  Accepts : ℕ → GuestMemory → Except QueueError (List Descriptor) → Prop
  Writes : ℕ → Except QueueError (List Descriptor) → ℕ → Prop

namespace Event

def Writes (K : Contract) : Event → ℕ → Prop
  | popped i q m c, a => K.Writes i (c.collect m) a ∨ q.UsedWrites a
  | _, _ => False

def Calm (K : Contract) : Event → Prop
  | popped i q m c => ∀ a, Writes K (popped i q m c) a → ¬ GuestMemory.Span q.availIdxAddr 2 a
  | _ => True

def Accepted (K : Contract) : Event → Prop
  | popped i _ m c => K.Accepts i m (c.collect m)
  | _ => True

def IsPushFailure : Event → Prop
  | pushFailed _ _ => True
  | _ => False

instance (e : Event) : Decidable e.IsPushFailure := by
  cases e <;> unfold IsPushFailure <;> infer_instance

def WritesIn (K : Contract) (l : List Event) (a : ℕ) : Prop := ∃ e ∈ l, e.Writes K a

end Event

inductive Served (K : Contract) : List Event → Prop
  | nil : Served K []
  | pushed {i q m c n l} (hpop : (q.popAvail m).1 = .ok (some c))
      (hacc : K.Accepts i m (c.collect m)) (hl : Served K l) :
      Served K (.popped i q m c :: .pushed i c.headIndex n :: l)
  | pushFailed {i q m c l} (hpop : (q.popAvail m).1 = .ok (some c))
      (hacc : K.Accepts i m (c.collect m)) (hl : Served K l) :
      Served K (.popped i q m c :: .pushFailed i c.headIndex :: l)
  | dropped {i q m c l} (hpop : (q.popAvail m).1 = .ok (some c))
      (hacc : ¬ K.Accepts i m (c.collect m)) (hl : Served K l) : Served K (.popped i q m c :: l)
  | pulsed {n l} (hl : Served K l) : Served K (.pulsed n :: l)

variable {K : Contract} {l : List Event}

theorem Served.append {l' : List Event} (h : Served K l) (h' : Served K l') :
    Served K (l ++ l') := by
  induction h with
  | nil => exact h'
  | pushed hpop hacc _ ih => exact .pushed hpop hacc ih
  | pushFailed hpop hacc _ ih => exact .pushFailed hpop hacc ih
  | dropped hpop hacc _ ih => exact .dropped hpop hacc ih
  | pulsed _ ih => exact .pulsed ih

theorem Served.popAvail (h : Served K l) {i : ℕ} {q : Queue} {m : GuestMemory} {c : DescriptorChain}
    (he : Event.popped i q m c ∈ l) : (q.popAvail m).1 = .ok (some c) := by
  induction h with
  | nil => cases he
  | pushed hpop _ _ ih | pushFailed hpop _ _ ih =>
    simp only [List.mem_cons, reduceCtorEq, false_or] at he
    obtain ⟨-, rfl, rfl, rfl⟩ | he := he
    · exact hpop
    · exact ih he
  | dropped hpop _ _ ih =>
    simp only [List.mem_cons] at he
    obtain ⟨-, rfl, rfl, rfl⟩ | he := he
    · exact hpop
    · exact ih he
  | pulsed _ ih =>
    simp only [List.mem_cons, reduceCtorEq, false_or] at he
    exact ih he

/-! ## One iteration -/

section Steps

variable {σ η ι : Type} {K : Contract} {qi : ℕ}

def HandlerMeets (K : Contract) (qi : ℕ) (h : Handler σ η) : Prop :=
  ∀ r own w, Returns (h r own w) fun x =>
    w.Touches (K.Writes qi r) x.2.2 ∧ (x.1.completes = true ↔ K.Accepts qi w.mem r)

structure Steps (K : Contract) (qi : ℕ) (new : List Event) (d d' : Drain σ η) : Prop where
  log : d'.world.log = d.world.log ++ new
  irq : d'.world.irq = d.world.irq
  settings : d'.queue.settings = d.queue.settings
  served : Served K new
  frame : SameOutside (Event.WritesIn K new) d.world.mem d'.world.mem
  source : ∀ i q m c, Event.popped i q m c ∈ new → i = qi ∧ q.settings = d.queue.settings
  pending : (∀ e ∈ new, e.Calm K) →
    (poppedHeads qi new).length + d'.queue.pending d'.world.mem ≤ d.queue.pending d.world.mem

theorem Steps.refl (d : Drain σ η) : Steps K qi [] d d where
  log := (List.append_nil _).symm
  irq := rfl
  settings := rfl
  served := .nil
  frame := .refl _ _
  source _ _ _ _ h := by cases h
  pending _ := by simp [poppedHeads]

variable {a : ℕ} {new : List Event} {d' : Drain σ η}

theorem Event.WritesIn.append_left {l : List Event} (l' : List Event) (h : Event.WritesIn K l a) :
    Event.WritesIn K (l ++ l') a := by
  obtain ⟨e, he, hw⟩ := h
  exact ⟨e, List.mem_append_left l' he, hw⟩

theorem Event.WritesIn.append_right {l' : List Event} (l : List Event) (h : Event.WritesIn K l' a) :
    Event.WritesIn K (l ++ l') a := by
  obtain ⟨e, he, hw⟩ := h
  exact ⟨e, List.mem_append_right l he, hw⟩

@[simp] theorem poppedHeads_cons (i : ℕ) (e : Event) (l : List Event) :
    poppedHeads i (e :: l) = (e.poppedHead i).toList ++ poppedHeads i l := by
  unfold poppedHeads
  cases h : e.poppedHead i <;> simp [h]

@[simp] theorem pushedHeads_cons (i : ℕ) (e : Event) (l : List Event) :
    pushedHeads i (e :: l) = (e.pushedHead i).toList ++ pushedHeads i l := by
  unfold pushedHeads
  cases h : e.pushedHead i <;> simp [h]

@[simp] theorem poppedHeads_append (i : ℕ) (l l' : List Event) :
    poppedHeads i (l ++ l') = poppedHeads i l ++ poppedHeads i l' := List.filterMap_append

variable {d : Drain σ η} {h : Handler σ η}

theorem Steps.trans {new' : List Event} {d'' : Drain σ η} (h : Steps K qi new d d')
    (h' : Steps K qi new' d' d'') : Steps K qi (new ++ new') d d'' where
  log := by rw [h'.log, h.log, List.append_assoc]
  irq := h'.irq.trans h.irq
  settings := h'.settings.trans h.settings
  served := h.served.append h'.served
  frame := (h.frame.mono fun _ ha => ha.append_left new').trans
    (h'.frame.mono fun _ ha => ha.append_right new)
  source i q m c he := by
    rcases List.mem_append.1 he with he | he
    · exact h.source i q m c he
    · exact ⟨(h'.source i q m c he).1, (h'.source i q m c he).2.trans h.settings⟩
  pending hc := by
    have h1 := h.pending fun e he => hc e (List.mem_append_left _ he)
    have h2 := h'.pending fun e he => hc e (List.mem_append_right _ he)
    rw [poppedHeads_append, List.length_append]
    omega

theorem steps_popped {c : DescriptorChain} {q : Queue} (d' : Drain σ η) (rest : List Event)
    (hpop : d.queue.popAvail d.world.mem = (.ok (some c), q))
    (hlog : d'.world.log = d.world.log ++ .popped qi d.queue d.world.mem c :: rest)
    (hserved : Served K (.popped qi d.queue d.world.mem c :: rest))
    (hrest : ∀ i q m c, Event.popped i q m c ∉ rest) (hirq : d'.world.irq = d.world.irq)
    (hset : d'.queue.settings = q.settings) (hnext : d'.queue.nextAvailIdx = q.nextAvailIdx)
    (hframe : SameOutside (Event.Writes K (.popped qi d.queue d.world.mem c)) d.world.mem
      d'.world.mem) :
    Steps K qi (.popped qi d.queue d.world.mem c :: rest) d d' ∧
      (poppedHeads qi (.popped qi d.queue d.world.mem c :: rest)).length = 1 := by
  have hq : q.settings = d.queue.settings := by rw [(Queue.popAvail_some hpop).2.2.2]; rfl
  have hpops : poppedHeads qi rest = [] := List.filterMap_eq_nil_iff.2 fun x hx => by
    cases x with
    | popped => exact absurd hx (hrest _ _ _ _)
    | pushed | pushFailed | pulsed => rfl
  have hlen : (poppedHeads qi (.popped qi d.queue d.world.mem c :: rest)).length = 1 := by
    simp [Event.poppedHead, hpops]
  refine ⟨⟨hlog, hirq, hset.trans hq, hserved, ?_, ?_, fun hc => ?_⟩, hlen⟩
  · exact hframe.mono fun a ha => ⟨_, List.mem_cons_self, ha⟩
  · intro i q m c he
    rcases List.mem_cons.1 he with he | he
    · cases he
      exact ⟨rfl, rfl⟩
    · exact absurd he (hrest _ _ _ _)
  · have hcalm := hc _ List.mem_cons_self
    have hsame : d'.queue.pending d'.world.mem = q.pending d.world.mem :=
      Queue.pending_congr hset hnext hframe fun a ha => by
        rw [Queue.availIdxAddr_congr hq]
        exact hcalm a ha
    have := Queue.pending_popAvail hpop
    omega

theorem push_cases (d : Drain σ η) (qi : ℕ) (head : UInt16) (written : UInt32) :
    ∃ e q m, (e = .pushed qi head written ∨ e = .pushFailed qi head) ∧
      (d.push qi head written).2 =
        { d with queue := q, world := { d.world with mem := m }.emit e } ∧
      SameOutside d.queue.UsedWrites d.world.mem m ∧ q.settings = d.queue.settings ∧
      q.nextAvailIdx = d.queue.nextAvailIdx := by
  unfold Drain.push
  rcases hp : d.queue.pushUsed d.world.mem head written with ⟨_ | _, q, m⟩
  · exact ⟨_, q, m, .inr rfl, rfl, Queue.pushUsed_frame hp⟩
  · exact ⟨_, q, m, .inl rfl, rfl, Queue.pushUsed_frame hp⟩

theorem settle_state (d : Drain σ η) (qi : ℕ) (head : UInt16) (action : Action) :
    (action.completes = false ∧ (d.settle qi head action).state = d) ∨
      ∃ written completed, action.completes = true ∧ (d.settle qi head action).state =
        { (d.push qi head written).2 with completed := completed } := by
  cases action with
  | abandon => exact .inl ⟨rfl, rfl⟩
  | skip => exact .inl ⟨rfl, rfl⟩
  | complete written =>
    refine .inr ⟨written, ?_⟩
    simp only [Drain.settle]
    rcases d.push qi head written with ⟨_ | _, d'⟩
    · exact ⟨d'.completed, rfl, rfl⟩
    · exact ⟨true, rfl, rfl⟩
  | completeAnyway written => exact .inr ⟨written, true, rfl, rfl⟩

theorem settle_keeps (d : Drain σ η) (qi : ℕ) (head : UInt16) (action : Action) :
    (d.settle qi head action).state.own = d.own ∧
      (d.settle qi head action).state.world.host = d.world.host := by
  rcases settle_state d qi head action with ⟨-, hs⟩ | ⟨written, completed, -, hs⟩
  · rw [hs]
    exact ⟨rfl, rfl⟩
  · obtain ⟨e, q, m, -, hd, -⟩ := push_cases d qi head written
    rw [hs, hd]
    exact ⟨rfl, rfl⟩

theorem serve_steps (hh : HandlerMeets K qi h) (onEmpty : σ → σ) (d : Drain σ η) :
    Returns (serve qi h onEmpty d) fun c => ∃ new, Steps K qi new d c.state ∧
      ∀ d', c = .next d' → (poppedHeads qi new).length = 1 := by
  unfold serve
  rcases hpop : d.queue.popAvail d.world.mem with ⟨_ | _ | c, q⟩
  · obtain rfl := Queue.popAvail_error hpop
    exact returns_ok ⟨[], .refl d, fun _ h => by cases h⟩
  · obtain rfl := Queue.popAvail_none hpop
    exact returns_ok ⟨[], ⟨(List.append_nil _).symm, rfl, rfl, .nil, .refl _ _, nofun,
      fun _ => by simp [poppedHeads]⟩, fun _ h => by cases h⟩
  · obtain ⟨⟨action, own, w⟩, hx, ht, hacc⟩ :=
      hh (c.collect d.world.mem) d.own (d.world.emit (.popped qi d.queue d.world.mem c))
    have hpop' : (d.queue.popAvail d.world.mem).1 = .ok (some c) := congrArg Prod.fst hpop
    have hlog : w.log = d.world.log ++ [.popped qi d.queue d.world.mem c] := ht.log
    have hframe := ht.mem.mono (B := Event.Writes K (.popped qi d.queue d.world.mem c))
      fun a ha => .inl ha
    dsimp only
    rw [show (d.world.emit (.popped qi d.queue d.world.mem c)).mem = d.world.mem from rfl, hx]
    refine returns_ok ?_
    have key := settle_state { d with queue := q, own, world := w } qi c.headIndex action
    rcases key with ⟨hno, hs⟩ | ⟨written, completed, hyes, hs⟩
    · have hna : ¬ K.Accepts qi d.world.mem (c.collect d.world.mem) := fun ha => by
        simp [hacc.2 ha] at hno
      rw [hs]
      have := steps_popped { d with queue := q, own, world := w } [] hpop hlog
        (.dropped hpop' hna .nil) (by simp) ht.irq rfl rfl hframe
      exact ⟨_, this.1, fun _ _ => this.2⟩
    · obtain ⟨e, q', m, he, hd, hm, hset, hnext⟩ :=
        push_cases { d with queue := q, own, world := w } qi c.headIndex written
      have ha : K.Accepts qi d.world.mem (c.collect d.world.mem) := hacc.1 hyes
      have huse : q.UsedWrites = d.queue.UsedWrites := by
        rw [(Queue.popAvail_some hpop).2.2.2]; rfl
      have hserved : Served K [.popped qi d.queue d.world.mem c, e] := by
        rcases he with rfl | rfl
        · exact .pushed hpop' ha .nil
        · exact .pushFailed hpop' ha .nil
      have hrest : ∀ i q m c, Event.popped i q m c ∉ [e] := by
        rcases he with rfl | rfl <;> simp
      rw [hs, hd]
      have := steps_popped { d with
          queue := q', own, world := { w with mem := m }.emit e, completed := completed } [e] hpop
        (by simp [World.emit, hlog]) hserved hrest ht.irq hset hnext
        (hframe.trans (hm.mono fun a ha => .inr (huse ▸ ha)))
      exact ⟨_, this.1, fun _ _ => this.2⟩

theorem loop_steps (hh : HandlerMeets K qi h) (onEmpty : σ → σ) (n : ℕ) (d : Drain σ η) :
    Returns (loop (serve qi h onEmpty) n d) fun r => ∃ new, Steps K qi new d r.2 := by
  refine (loop_returns (fun _ => True) (fun d d' => ∃ new, Steps K qi new d d')
    (fun d => ⟨[], .refl d⟩) ?_ ?_ n d trivial).mono fun _ h => h.2
  · rintro a b c ⟨_, h⟩ ⟨_, h'⟩
    exact ⟨_, h.trans h'⟩
  · exact fun d _ => (serve_steps hh onEmpty d).mono fun c ⟨new, hs, _⟩ => ⟨trivial, new, hs⟩

theorem loop_steps_left (hh : HandlerMeets K qi h) (onEmpty : σ → σ) {n : ℕ} {b : Bool}
    (hn : 65536 ≤ n) (hl : loop (serve qi h onEmpty) n d = .ok (b, d')) (hs : Steps K qi new d d')
    (hc : ∀ e ∈ new, e.Calm K) : b = true := by
  -- What is known of the rest of the loop: all entries it adds to the trace are calm.
  refine loop_left (fun d => d.queue.pending d.world.mem)
    (Q := fun d d' => ∀ new, d'.world.log = d.world.log ++ new → ∀ e ∈ new, e.Calm K)
    (fun d d₁ n b d' h₁ hrest hQ => ?_) ?_ (fun new' hlog => ?_) hl
  · obtain ⟨new₁, hs₁, hpop⟩ := (serve_steps hh onEmpty d).of_eq h₁
    obtain ⟨new₂, hs₂⟩ := (loop_steps hh onEmpty n d₁).of_eq hrest
    have hcalm := hQ (new₁ ++ new₂) (hs₁.trans hs₂).log
    have hpend := hs₁.pending fun e he => hcalm e (List.mem_append_left _ he)
    have hlen := hpop d₁ rfl
    refine ⟨by simp only [Ctl.state_next] at hpend; omega, fun new' hlog => ?_⟩
    obtain rfl : new' = new₂ := List.append_cancel_left (hlog.symm.trans hs₂.log)
    exact fun e he => hcalm e (List.mem_append_right _ he)
  · exact lt_of_le_of_lt (Queue.pending_le _ _) (by omega)
  · obtain rfl : new' = new := List.append_cancel_left (hlog.symm.trans hs.log)
    exact hc

theorem forLoop_steps {h : ι → Handler σ η} (hh : ∀ item, HandlerMeets K qi (h item))
    (requeue : ι → σ → σ) (items : List ι) (d : Drain σ η) :
    Returns (forLoop (fun item => serve qi (h item) (requeue item)) items d) fun d' =>
      ∃ new, Steps K qi new d d' := by
  refine (forLoop_returns (fun _ => True) (fun d d' => ∃ new, Steps K qi new d d')
    (fun d => ⟨[], .refl d⟩) ?_ items d trivial ?_).mono fun _ h => h.2
  · rintro a b c ⟨_, h⟩ ⟨_, h'⟩
    exact ⟨_, h.trans h'⟩
  · exact fun item _ d _ => (serve_steps (hh item) (requeue item) d).mono
      fun c ⟨new, hs, _⟩ => ⟨trivial, new, hs⟩

end Steps

section Programs

variable {σ η ι : Type} {K : Contract} {qi n fuel : ℕ}

structure Evolves (K : Contract) (new : List Event) (fd : Frontend σ) (w : World η)
    (fd' : Frontend σ) (w' : World η) : Prop where
  acked : fd'.acked = fd.acked
  state : fd'.state = fd.state
  settings : fd'.queues.map Queue.settings = fd.queues.map Queue.settings
  log : w'.log = w.log ++ new
  served : Served K new
  frame : SameOutside (Event.WritesIn K new) w.mem w'.mem
  source : ∀ i q m c, Event.popped i q m c ∈ new →
    ∃ q₀, fd.queues[i]? = some q₀ ∧ q.settings = q₀.settings

def Keeps (K : Contract) (fuel : ℕ) (qs : List ℕ) (p : Prog σ η) : Prop :=
  ∀ fd w r, p fd w = .ok r → ∃ new, Evolves K new fd w r.2.1 r.2.2 ∧
    (65536 ≤ fuel → (∀ e ∈ new, e.Calm K) →
      r.1 = true ∧ ∀ i, (poppedHeads i new).length ≤ if i ∈ qs then 65535 else 0)

structure Meets (K : Contract) (n fuel : ℕ) (qs : List ℕ) (p : Prog σ η) : Prop where
  keeps : Keeps K fuel qs p
  safe : ∀ fd w, n ≤ fd.queues.length → ∃ r, p fd w = .ok r

variable {i : ℕ} {queue : Queue} {own : σ} {p' : Prog σ η} {h : Handler σ η}

theorem map_set_of_eq {α β : Type} {l : List α} {a a' : α} {f : α → β} (h : l[i]? = some a)
    (hf : f a' = f a) : (l.set i a').map f = l.map f := by
  refine List.ext_getElem? fun j => ?_
  rw [List.getElem?_map, List.getElem?_map, List.getElem?_set]
  split_ifs with hj hlt
  · rw [← hj, h, Option.map_some, Option.map_some, hf]
  · rw [List.getElem?_eq_none (by omega)]
  · rfl

theorem getElem?_of_map_settings {queues queues' : List Queue} {q' : Queue}
    (h : queues'.map Queue.settings = queues.map Queue.settings) (hq : queues'[i]? = some q') :
    ∃ q, queues[i]? = some q ∧ q'.settings = q.settings := by
  have hi := congrArg (fun l => l[i]?) h
  simp only [List.getElem?_map, hq] at hi
  obtain ⟨q, hq, hs⟩ := Option.map_eq_some_iff.1 hi.symm
  exact ⟨q, hq, hs.symm⟩

theorem Evolves.refl (fd : Frontend σ) (w : World η) : Evolves K [] fd w fd w where
  acked := rfl
  state := rfl
  settings := rfl
  log := (List.append_nil _).symm
  served := .nil
  frame := .refl _ _
  source _ _ _ _ h := by cases h

variable {new : List Event} {fd fd' : Frontend σ} {w w' : World η} {d : Drain σ η} {qs qs' : List ℕ}
  {p : Prog σ η}

theorem Evolves.trans {new' : List Event} {fd'' : Frontend σ} {w'' : World η}
    (h : Evolves K new fd w fd' w') (h' : Evolves K new' fd' w' fd'' w'') :
    Evolves K (new ++ new') fd w fd'' w'' where
  acked := h'.acked.trans h.acked
  state := h'.state.trans h.state
  settings := h'.settings.trans h.settings
  log := by rw [h'.log, h.log, List.append_assoc]
  served := h.served.append h'.served
  frame := (h.frame.mono fun _ ha => ha.append_left new').trans
    (h'.frame.mono fun _ ha => ha.append_right new)
  source i q m c he := by
    rcases List.mem_append.1 he with he | he
    · exact h.source i q m c he
    · obtain ⟨q₁, h₁, hq₁⟩ := h'.source i q m c he
      obtain ⟨q₀, h₀, hq₀⟩ := getElem?_of_map_settings h.settings h₁
      exact ⟨q₀, h₀, hq₁.trans hq₀⟩

theorem Evolves.length_queues (h : Evolves K new fd w fd' w') :
    fd'.queues.length = fd.queues.length := by
  simpa using congrArg List.length h.settings

theorem Steps.finish (hq : fd.queues[qi]? = some queue)
    (h : Steps K qi new { queue, own, world := w, completed := false } d) :
    ∃ new', Evolves K (new ++ new') fd w (d.finish qi fd).1 (d.finish qi fd).2 ∧
      ∀ i, poppedHeads i new' = [] := by
  have hset := map_set_of_eq hq h.settings
  have hsrc : ∀ i q m c, Event.popped i q m c ∈ new →
      ∃ q₀, fd.queues[i]? = some q₀ ∧ q.settings = q₀.settings := fun i q m c he => by
    obtain ⟨rfl, hs⟩ := h.source i q m c he
    exact ⟨queue, hq, hs⟩
  unfold Drain.finish
  split_ifs with hc
  · refine ⟨[.pulsed d.world.irq.intid], ⟨rfl, rfl, hset, ?_, h.served.append (.pulsed .nil),
      h.frame.mono fun _ ha => ha.append_left _, fun i q m c he => hsrc i q m c ?_⟩, fun i => rfl⟩
    · simp [World.triggerQueue, World.emit, h.log]
    · simpa using he
  · exact ⟨[], ⟨rfl, rfl, hset, by simp [h.log], by simpa using h.served, by simpa using h.frame,
      fun i q m c he => hsrc i q m c (by simpa using he)⟩, fun i => rfl⟩

theorem Steps.suspend (hq : fd.queues[qi]? = some queue)
    (h : Steps K qi new { queue, own, world := w, completed := false } d) :
    Evolves K new fd w (d.suspend qi fd).1 (d.suspend qi fd).2 where
  acked := rfl
  state := rfl
  settings := map_set_of_eq hq h.settings
  log := h.log
  served := h.served
  frame := h.frame
  source i q m c he := by
    obtain ⟨rfl, hs⟩ := h.source i q m c he
    exact ⟨queue, hq, hs⟩

/-! ### The programs of a device -/

theorem Evolves.keeps_nil (h : Evolves K [] fd w fd' w') : ∃ new, Evolves K new fd w fd' w' ∧
      (65536 ≤ fuel → (∀ e ∈ new, e.Calm K) →
        true = true ∧ ∀ i, (poppedHeads i new).length ≤ if i ∈ qs then 65535 else 0) :=
  ⟨[], h, fun _ _ => ⟨rfl, fun _ => Nat.zero_le _⟩⟩

theorem skip_keeps : Keeps K fuel qs (Prog.skip : Prog σ η) := fun fd w r h => by
  cases h
  exact (Evolves.refl fd w).keeps_nil

theorem skip_meets : Meets K n fuel qs (Prog.skip : Prog σ η) :=
  ⟨skip_keeps, fun _ _ _ => ⟨_, rfl⟩⟩

theorem Keeps.mono (hp : Keeps K fuel qs p) (h : qs ⊆ qs') :
    Keeps K fuel qs' p := fun fd w r hr => by
  obtain ⟨new, he, hb⟩ := hp fd w r hr
  refine ⟨new, he, fun hf hc => ⟨(hb hf hc).1, fun i => ((hb hf hc).2 i).trans ?_⟩⟩
  split_ifs with h1 h2 h2
  · exact le_refl _
  · exact absurd (h h1) h2
  · exact Nat.zero_le _
  · exact le_refl _

theorem Meets.mono (hp : Meets K n fuel qs p) (h : qs ⊆ qs') :
    Meets K n fuel qs' p := ⟨hp.keeps.mono h, hp.safe⟩

theorem andThen_keeps (hp : Keeps K fuel qs p) (hp' : Keeps K fuel qs' p') (hd : ∀ i ∈ qs, i ∉ qs') :
    Keeps K fuel (qs ++ qs') (p.andThen p') := fun fd w r hr => by
  unfold Prog.andThen at hr
  split at hr
  · cases hr
  · next fd₁ w₁ h₁ =>
    obtain ⟨new, he, hb⟩ := hp fd w _ h₁
    obtain ⟨new', he', hb'⟩ := hp' fd₁ w₁ r hr
    refine ⟨new ++ new', he.trans he', fun hf hc => ?_⟩
    have h1 := hb hf fun e he => hc e (List.mem_append_left _ he)
    have h2 := hb' hf fun e he => hc e (List.mem_append_right _ he)
    refine ⟨h2.1, fun i => ?_⟩
    have h1i := h1.2 i
    have h2i := h2.2 i
    by_cases hi : i ∈ qs <;> by_cases hi' : i ∈ qs' <;> simp_all
  · next fd₁ w₁ h₁ =>
    obtain ⟨new, he, hb⟩ := hp fd w _ h₁
    cases hr
    exact ⟨new, he, fun hf hc => absurd (hb hf hc).1 Bool.false_ne_true⟩

theorem andThen_meets (hp : Meets K n fuel qs p) (hp' : Meets K n fuel qs' p')
    (hd : ∀ i ∈ qs, i ∉ qs') : Meets K n fuel (qs ++ qs') (p.andThen p') where
  keeps := andThen_keeps hp.keeps hp'.keeps hd
  safe fd w hn := by
    obtain ⟨⟨b, fd₁, w₁⟩, hr⟩ := hp.safe fd w hn
    obtain ⟨new, he, -⟩ := hp.keeps fd w _ hr
    rw [Prog.andThen, hr]
    cases b with
    | false => exact ⟨_, rfl⟩
    | true => exact hp'.safe fd₁ w₁ (by rw [he.length_queues]; exact hn)

theorem Steps.length_popped_le {d' : Drain σ η} (h : Steps K qi new d d') (hc : ∀ e ∈ new, e.Calm K)
    (i : ℕ) :
    (poppedHeads i new).length ≤ if i ∈ [qi] then 65535 else 0 := by
  split_ifs with hi
  · obtain rfl := List.mem_singleton.1 hi
    have := h.pending hc
    have := Queue.pending_le d.queue d.world.mem
    omega
  · refine Nat.le_of_eq (List.length_eq_zero_iff.2 (List.filterMap_eq_nil_iff.2 fun e he => ?_))
    cases e with
    | popped j q m c =>
      obtain ⟨rfl, -⟩ := h.source _ _ _ _ he
      exact if_neg fun h => hi (by simp [h])
    | pushed | pushFailed | pulsed => rfl

theorem drain_keeps (hh : HandlerMeets K qi h) :
    Keeps K fuel [qi] (drain fuel qi h) := fun fd w r hr => by
  unfold drain at hr
  split_ifs at hr
  swap
  · cases hr
    exact (Evolves.refl fd w).keeps_nil
  split at hr
  · cases hr
  next queue hi =>
  have hq := index_eq_ok.1 hi
  obtain ⟨⟨b, d⟩, hl, new, hs⟩ :=
    loop_steps hh id fuel { queue, own := fd.own, world := w, completed := false }
  have hleft := fun hf hc => loop_steps_left hh id hf hl hs hc
  rw [hl] at hr
  cases b with
  | false =>
    cases hr
    exact ⟨new, hs.suspend hq, fun hf hc => absurd (hleft hf hc) Bool.false_ne_true⟩
  | true =>
    cases hr
    obtain ⟨new', he, hpop⟩ := hs.finish hq
    refine ⟨_, he, fun _ hc => ⟨rfl, fun i => ?_⟩⟩
    rw [poppedHeads_append, hpop, List.append_nil]
    exact hs.length_popped_le (fun e he => hc e (List.mem_append_left _ he)) i

theorem drain_meets (hh : HandlerMeets K qi h) (hqi : qi < n) :
    Meets K n fuel [qi] (drain fuel qi h) where
  keeps := drain_keeps hh
  safe fd w hn := by
    unfold drain
    split_ifs
    · obtain ⟨queue, hi, -⟩ := returns_index (lt_of_lt_of_le hqi hn)
      obtain ⟨⟨b, d⟩, hl, -⟩ :=
        loop_steps hh id fuel { queue, own := fd.own, world := w, completed := false }
      simp only [hi, hl]
      cases b <;> exact ⟨_, rfl⟩
    · exact ⟨_, rfl⟩

section Deliver

variable {fetch : σ → World η → List ι × σ × World η} {h : ι → Handler σ η} {requeue : ι → σ → σ}

theorem evolves_fetch (hf : ∀ own w, World.Touches (fun _ => False) w (fetch own w).2.2)
    (fd : Frontend σ) (w : World η) (own : σ) :
    Evolves K [] fd w { fd with own } (fetch fd.own w).2.2 where
  acked := rfl
  state := rfl
  settings := rfl
  log := by simp [(hf fd.own w).log]
  served := .nil
  frame := (hf fd.own w).mem.mono nofun
  source := nofun

theorem deliver_keeps (hf : ∀ own w, World.Touches (fun _ => False) w (fetch own w).2.2)
    (hh : ∀ item, HandlerMeets K qi (h item)) :
    Keeps K fuel [qi] (deliver qi fetch h requeue) := fun fd w r hr => by
  unfold deliver at hr
  split_ifs at hr
  swap
  · cases hr
    exact (Evolves.refl fd w).keeps_nil
  have hfetch : ∀ own, Evolves K [] fd w { fd with own } (fetch fd.own w).2.2 :=
    evolves_fetch hf fd w
  rcases hx : fetch fd.own w with ⟨_ | ⟨item, items⟩, own, w₁⟩
  · simp only [hx] at hr hfetch
    cases hr
    exact (hfetch own).keeps_nil
  simp only [hx] at hr hfetch
  split at hr
  · cases hr
  next queue hi =>
  obtain ⟨d, hl, new, hs⟩ :=
    forLoop_steps hh requeue (item :: items) { queue, own, world := w₁, completed := false }
  rw [hl] at hr
  cases hr
  have hq : ({ fd with own := own } : Frontend σ).queues[qi]? = some queue := index_eq_ok.1 hi
  obtain ⟨new', he, hpop⟩ := hs.finish hq
  refine ⟨_, (hfetch own).trans he, fun _ hc => ⟨rfl, fun i => ?_⟩⟩
  rw [List.nil_append, poppedHeads_append, hpop, List.append_nil]
  exact hs.length_popped_le (fun e he => hc e (by simp [he])) i

theorem deliver_meets (hf : ∀ own w, World.Touches (fun _ => False) w (fetch own w).2.2)
    (hh : ∀ item, HandlerMeets K qi (h item)) (hqi : qi < n) :
    Meets K n fuel [qi] (deliver qi fetch h requeue) where
  keeps := deliver_keeps hf hh
  safe fd w hn := by
    unfold deliver
    split_ifs
    · rcases fetch fd.own w with ⟨_ | ⟨item, items⟩, own, w₁⟩
      · exact ⟨_, rfl⟩
      · obtain ⟨queue, hi, -⟩ := returns_index (lt_of_lt_of_le hqi hn)
        obtain ⟨d, hl, -⟩ :=
          forLoop_steps hh requeue (item :: items) { queue, own, world := w₁, completed := false }
        simp only [hi, hl]
        exact ⟨_, rfl⟩
    · exact ⟨_, rfl⟩

end Deliver

/-! ### The states of the device and of the host -/

section Relates

variable (R : σ × η → σ × η → Prop) (hrefl : ∀ x, R x x) (htrans : ∀ {x y z}, R x y → R y z → R x z)
  {h : Handler σ η}

include hrefl in
theorem serve_relates
    (hh : ∀ r own w, Returns (h r own w) fun x => R (own, w.host) (x.2.1, x.2.2.host))
    (d : Drain σ η) :
    Returns (serve qi h id d) fun c =>
      R (d.own, d.world.host) (c.state.own, c.state.world.host) := by
  unfold serve
  rcases d.queue.popAvail d.world.mem with ⟨_ | _ | c, q⟩
  · exact returns_ok (hrefl _)
  · exact returns_ok (hrefl _)
  · obtain ⟨⟨action, own, w⟩, hx, hR⟩ :=
      hh (c.collect d.world.mem) d.own (d.world.emit (.popped qi d.queue d.world.mem c))
    dsimp only
    rw [show (d.world.emit (.popped qi d.queue d.world.mem c)).mem = d.world.mem from rfl, hx]
    refine returns_ok ?_
    obtain ⟨hown, hhost⟩ := settle_keeps { d with queue := q, own, world := w } qi c.headIndex action
    rw [hown, hhost]
    exact hR

include hrefl htrans in
theorem drain_relates
    (hh : ∀ r own w, Returns (h r own w) fun x => R (own, w.host) (x.2.1, x.2.2.host)) {b : Bool}
    (hdrain : drain fuel qi h fd w = .ok (b, fd', w')) : R (fd.own, w.host) (fd'.own, w'.host) := by
  unfold drain at hdrain
  split_ifs at hdrain
  swap
  · cases hdrain
    exact hrefl _
  split at hdrain
  · cases hdrain
  next queue hi =>
  obtain ⟨⟨left, d⟩, hl, -, hR⟩ := loop_returns (fun _ => True)
    (fun d d' => R (d.own, d.world.host) (d'.own, d'.world.host)) (fun _ => hrefl _) htrans
    (fun d _ => (serve_relates R hrefl hh d).mono fun _ hc => ⟨trivial, hc⟩) fuel
    { queue, own := fd.own, world := w, completed := false } trivial
  rw [hl] at hdrain
  cases left with
  | false =>
    cases hdrain
    exact hR
  | true =>
    cases hdrain
    split_ifs <;> exact hR

end Relates

end Programs

end Squib
