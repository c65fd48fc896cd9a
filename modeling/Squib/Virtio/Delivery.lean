import Mathlib.Data.List.TakeDrop
import Squib.Virtio.Posted

/-!
# Delivery to posted buffers
-/

namespace Squib

open Checked Loop GuestMemory

variable {σ η ι : Type}

/-! ## What the guest finds -/

def completedOn (qi : ℕ) : Event → Option (UInt16 × UInt32)
  | .pushed i head written => if i = qi then some (head, written) else none
  | _ => none

def content (q : Queue) (m : GuestMemory) (x : UInt16 × UInt32) : Option (List UInt8) :=
  match (q.chainAt x.1).collect m with
  | .error _ => none
  | .ok descs => some ((filled m descs).take x.2.toNat)

variable {q : Queue} {l : List Buffer} {descs : List Descriptor}

theorem content_congr {q' : Queue} (h : q'.settings = q.settings) (m : GuestMemory) :
    content q' m = content q m := by
  have hchain : ∀ head, q'.chainAt head = q.chainAt head := by
    intro head
    have := congrArg (Queue.chainAt · head) h
    exact this
  funext x
  rw [content, hchain, content]

def cutOff (wire : List UInt8) (b : Buffer) : Option (List UInt8) := some (wire.take (capacity b.2))

variable {wires : List (List UInt8)} {w : World η} {head : UInt16}

theorem zipWith_cutOff_eq_take_iff :
    List.zipWith cutOff wires l = (wires.take l.length).map some ↔
      ∀ p ∈ wires.zip l, p.1.length ≤ capacity p.2.2 := by
  induction wires generalizing l with
  | nil => simp
  | cons wire wires ih =>
    cases l with
    | nil => simp
    | cons b l =>
      simp only [List.zipWith_cons_cons, List.length_cons, List.take_succ_cons, List.map_cons,
        List.cons.injEq, ih, cutOff, Option.some_inj, List.take_eq_self_iff, List.zip_cons_cons,
        List.forall_mem_cons]

theorem zipWith_cutOff_eq_iff :
    List.zipWith cutOff wires l = wires.map some ↔
      wires.length ≤ l.length ∧ ∀ p ∈ wires.zip l, p.1.length ≤ capacity p.2.2 := by
  rw [← zipWith_cutOff_eq_take_iff]
  constructor
  · intro h
    have hlen : wires.length ≤ l.length := by
      have := congrArg List.length h
      rw [List.length_zipWith, List.length_map] at this
      omega
    exact ⟨hlen, by rw [h, List.take_of_length_le hlen]⟩
  · rintro ⟨hlen, h⟩
    rw [h, List.take_of_length_le hlen]

/-! ## One item -/

def Scatters (h : Handler σ η) (wire : List UInt8) : Prop :=
  ∀ descs own w, h (.ok descs) own w =
    (scatter wire descs 0 0 w).map fun r => (.complete r.1, own, r.2)

theorem scatter_cutOff (wire : List UInt8) (hfill : Fillable w.mem descs)
    (hsmall : capacity descs < 2 ^ 32) :
    ∃ n m, scatter wire descs 0 0 w = .ok (n, { w with mem := m }) ∧
      SameOutside (WriteOnlySpan descs) w.mem m ∧
      (filled m descs).take n.toNat = wire.take (capacity descs) := by
  have hlen : (wire.take (capacity descs)).length ≤ capacity descs := by
    rw [List.length_take]
    omega
  obtain ⟨n, m, hs, hn, hm, hf⟩ := scatter_fills (wire.take (capacity descs)) descs 0 0 w
    (Nat.zero_le _) hfill hlen (by rw [UInt32.toNat_zero]; omega)
  rw [scatter_take wire descs 0 0 w (by omega)] at hs
  rw [UInt32.toNat_zero, Nat.zero_add] at hn
  rw [← hn] at hf
  exact ⟨n, m, hs, hm, hf⟩

theorem serve_fills (qi : ℕ) {h : Handler σ η} {wire : List UInt8} (hh : Scatters h wire)
    {d : Drain σ η} (onEmpty : σ → σ) (husable : Usable [] d.queue d.world.mem ((head, descs) :: l)) :
    ∃ d' n, serve qi h onEmpty d = .ok (.next d') ∧
      d'.queue = { d.queue with
        nextAvailIdx := d.queue.nextAvailIdx + 1, nextUsedIdx := d.queue.nextUsedIdx + 1 } ∧
      d'.own = d.own ∧ d'.completed = true ∧ d'.world.host = d.world.host ∧
      d'.world.log = d.world.log ++
        [.popped qi d.queue d.world.mem (d.queue.chainAt head), .pushed qi head n] ∧
      SameOutside (Lent [(head, descs)] d.queue) d.world.mem d'.world.mem ∧
      (filled d'.world.mem descs).take n.toNat = wire.take (capacity descs) := by
  obtain ⟨hpop, hcollect, -⟩ := husable.posted
  obtain ⟨hfill, -, -⟩ := husable.fillable.append
  have hself : (head, descs) ∈ (head, descs) :: l := List.mem_cons_self
  obtain ⟨n, m₁, hscatter, hm₁, hfilled⟩ := scatter_cutOff wire
    (w := d.world.emit (.popped qi d.queue d.world.mem (d.queue.chainAt head))) hfill
    (husable.small _ hself)
  obtain ⟨m₂, hpush, hm₂⟩ := Queue.pushUsed_mapped
    (q := { d.queue with nextAvailIdx := d.queue.nextAvailIdx + 1 }) husable.valid
    ((contains_congr hm₁.regions _ _).trans husable.usedMapped) head n
  refine ⟨Drain.mk { d.queue with
      nextAvailIdx := d.queue.nextAvailIdx + 1, nextUsedIdx := d.queue.nextUsedIdx + 1 } d.own
    (World.emit { d.world.emit (.popped qi d.queue d.world.mem (d.queue.chainAt head)) with
      mem := m₂ } (.pushed qi head n)) true, n, ?_, rfl, rfl, rfl, rfl, ?_, ?_, ?_⟩
  · have hcollect' : (d.queue.chainAt head).collect
        (d.world.emit (.popped qi d.queue d.world.mem (d.queue.chainAt head))).mem =
        .ok descs := hcollect
    have hhead : (d.queue.chainAt head).headIndex = head := rfl
    have hhandler := hh descs d.own
      (d.world.emit (.popped qi d.queue d.world.mem (d.queue.chainAt head)))
    rw [hscatter] at hhandler
    simp only [serve, hpop, hcollect', hhandler, Except.map, Drain.settle, Drain.push, hhead, hpush]
  · simp [World.emit]
  · have hw : SameOutside (Lent [(head, descs)] d.queue) d.world.mem m₁ :=
      hm₁.mono fun a ha => lent_singleton.2 (.inl ha)
    exact hw.trans (hm₂.mono fun a ha => .inr ha)
  · have hkept : filled m₂ descs = filled m₁ descs :=
      filled_congr hm₂ (fun e he => (contains_congr hm₁.regions _ _).trans (hfill.mapped e he))
        fun a hused hspan => (husable.lentApart _ hself a hspan).1 hused
    exact (congrArg (List.take n.toNat) hkept).trans hfilled

theorem content_head {lens : List ℕ} {m m₁ m' : GuestMemory} {n : UInt32} {bytes : List UInt8}
    (h : Usable lens q m ((head, descs) :: l)) (hm₁ : SameOutside (Lent [(head, descs)] q) m m₁)
    (hm' : SameOutside (Lent l q) m₁ m') (hfilled : (filled m₁ descs).take n.toNat = bytes) :
    content q m' (head, n) = some bytes := by
  have hself : (head, descs) ∈ (head, descs) :: l := List.mem_cons_self
  obtain ⟨hfill, -, hapart⟩ := h.fillable.append
  have hall : SameOutside (Lent ((head, descs) :: l) q) m m' :=
    (hm₁.mono fun a ha => ha.head).trans (hm'.mono fun a ha => ha.tail)
  have hcollect : (q.chainAt head).collect m' = .ok descs :=
    (q.collect_chainAt_congr hall (fun a ha hin => h.lent_apart ha (.inr hin)) head).trans
      h.posted.2.1
  have hkept : filled m' descs = filled m₁ descs := by
    refine filled_congr hm'
      (fun e he => (contains_congr hm₁.regions _ _).trans (hfill.mapped e he)) fun a ha hspan => ?_
    obtain hother | hused := ha
    · exact hapart a hspan hother
    · exact (h.lentApart _ hself a hspan).1 hused
  rw [content, hcollect]
  exact congrArg some ((congrArg (List.take n.toNat) hkept).trans hfilled)

/-! ## All items -/

structure Fills (qi : ℕ) (wires : List (List UInt8)) (l : List Buffer) (d d' : Drain σ η)
    (new : List Event) : Prop where
  host : d'.world.host = d.world.host
  log : d'.world.log = d.world.log ++ new
  settings : d'.queue.settings = d.queue.settings
  frame : SameOutside (Lent l d.queue) d.world.mem d'.world.mem
  found : (new.filterMap (completedOn qi)).map (content d'.queue d'.world.mem) =
    List.zipWith cutOff wires l
  kept : d.completed = true → d'.completed = true
  completed : wires ≠ [] → l ≠ [] → d'.completed = true

theorem forLoop_fills (qi : ℕ) {h : ι → Handler σ η} {wire : ι → List UInt8}
    (hh : ∀ i, Scatters (h i) (wire i)) (requeue : ι → σ → σ) :
    ∀ (items : List ι) {l : List Buffer} {d : Drain σ η}, Usable [] d.queue d.world.mem l →
      ∃ d' new, forLoop (fun i => serve qi (h i) (requeue i)) items d = .ok d' ∧
        d'.own = (items.drop l.length).head?.elim d.own (requeue · d.own) ∧
        Fills qi (items.map wire) l d d' new
  | [], l, d, _ => by
    refine ⟨d, [], rfl, by rw [List.drop_nil]; rfl, ?_⟩
    exact ⟨rfl, (List.append_nil _).symm, rfl, .refl _ _, rfl, id, by simp⟩
  | i :: items, [], d, husable => by
    have hpop : d.queue.popAvail d.world.mem = (.ok none, d.queue) := husable.posted
    refine ⟨{ d with own := requeue i d.own }, [], ?_, rfl, ?_⟩
    · simp only [forLoop, serve, hpop]
    · exact ⟨rfl, (List.append_nil _).symm, rfl, .refl _ _, rfl, id, by simp⟩
  | i :: items, (head, descs) :: l, d, husable => by
    obtain ⟨d₁, n, hserve, hq, hown, hdone, hhost, hlog, hframe, hfilled⟩ :=
      serve_fills qi (hh i) (requeue i) husable
    have htail : Usable [] d₁.queue d₁.world.mem l := by
      rw [hq]
      exact husable.tail hframe
    obtain ⟨d', new, hrest, hown', hfills⟩ := forLoop_fills qi hh requeue items htail
    have hsettings : d'.queue.settings = d.queue.settings := by
      rw [hfills.settings, hq]
      rfl
    have hframe' : SameOutside (Lent l d.queue) d₁.world.mem d'.world.mem := by
      have := hfills.frame
      rw [hq] at this
      exact this
    have hfound := content_head husable hframe hframe' hfilled
    have hothers := hfills.found
    rw [content_congr hsettings] at hothers
    refine ⟨d', .popped qi d.queue d.world.mem (d.queue.chainAt head) ::
      .pushed qi head n :: new, by rw [forLoop, hserve]; exact hrest, ?_, ?_⟩
    · rw [hown', hown]
      rfl
    · exact
        { host := hfills.host.trans hhost
          log := by rw [hfills.log, hlog, List.append_assoc]; rfl
          settings := hsettings
          frame := (hframe.mono fun a ha => ha.head).trans (hframe'.mono fun a ha => ha.tail)
          found := by
            rw [content_congr hsettings]
            simp only [List.filterMap_cons, completedOn, if_true, List.map_cons]
            rw [hfound, hothers]
            rfl
          kept := fun _ => hfills.kept hdone
          completed := fun _ _ => hfills.kept hdone }

theorem finish_world (d : Drain σ η) (qi : ℕ) (fd : Frontend σ) :
    ∃ tail, (d.finish qi fd).2.log = d.world.log ++ tail ∧ tail.filterMap (completedOn qi) = [] ∧
      (d.finish qi fd).2.host = d.world.host ∧ (d.finish qi fd).2.mem = d.world.mem ∧
      (d.completed = true → tail = [.pulsed d.world.irq.intid]) := by
  unfold Drain.finish
  split_ifs with h
  · exact ⟨[.pulsed d.world.irq.intid], rfl, rfl, rfl, rfl, fun _ => rfl⟩
  · exact ⟨[], (List.append_nil _).symm, rfl, rfl, rfl, fun hc => absurd hc h⟩

theorem deliver_fills {qi : ℕ} {fetch : σ → World η → List ι × σ × World η} {h : ι → Handler σ η}
    {wire : ι → List UInt8} (hh : ∀ i, Scatters (h i) (wire i)) (requeue : ι → σ → σ)
    {fd : Frontend σ} {items : List ι} {own : σ} {host : η}
    (hactive : (fd.state.mem && fd.state.irq) = true) (hq : fd.queues[qi]? = some q)
    (hfetch : fetch fd.own w = (items, own, { w with host })) (husable : Usable [] q w.mem l) :
    ∃ fd' w' new q', deliver qi fetch h requeue fd w = .ok (true, fd', w') ∧
      fd'.own = (items.drop l.length).head?.elim own (requeue · own) ∧ w'.host = host ∧
      w'.log = w.log ++ new ∧ fd'.queues[qi]? = some q' ∧
      (new.filterMap (completedOn qi)).map (content q' w'.mem) =
        List.zipWith cutOff (items.map wire) l ∧
      (items ≠ [] → l ≠ [] → ∃ intid, .pulsed intid ∈ new) := by
  rw [deliver, if_pos hactive, hfetch]
  cases items with
  | nil =>
    refine ⟨_, _, [], q, rfl, ?_, rfl, (List.append_nil _).symm, hq, rfl, by simp⟩
    rw [List.drop_nil]
    rfl
  | cons i items =>
    have hindex : index fd.queues qi = .ok q := index_eq_ok.2 hq
    obtain ⟨d', new, hloop, hown, hfills⟩ := forLoop_fills qi hh requeue (i :: items)
      (d := { queue := q, own, completed := false, world := { w with host } }) husable
    obtain ⟨tail, hlog, htail, hhost, hmem, hpulse⟩ := finish_world d' qi fd
    have hset : (fd.queues.set qi d'.queue)[qi]? = some d'.queue :=
      List.getElem?_set_self (List.getElem?_eq_some_iff.1 hq).1
    rw [hindex]
    dsimp only
    rw [hloop]
    refine ⟨(d'.finish qi fd).1, (d'.finish qi fd).2, new ++ tail, d'.queue, rfl, hown,
      hhost.trans hfills.host, ?_, hset, ?_, fun _ hl => ?_⟩
    · rw [hlog, hfills.log, List.append_assoc]
    · rw [List.filterMap_append, htail, List.append_nil, hmem]
      exact hfills.found
    · rw [hpulse (hfills.completed (by simp) hl)]
      exact ⟨_, List.mem_append_right _ (List.mem_singleton_self _)⟩

end Squib
