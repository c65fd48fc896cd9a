import Mathlib.Control.Monad.Writer

/-!
# Computations with a record
-/

namespace Audit

variable {κ ε α β : Type}

abbrev Audited (κ ε α : Type) := WriterT (List κ) (Except ε) α

def Audits (x : Audited κ ε α) (y : Except ε α) (cs : List κ) : Prop :=
  x.run = y.map fun a => (a, cs)

def record (x : Audited κ ε α) : List κ :=
  match x.run with
  | .ok (_, cs) => cs
  | .error _ => []

namespace Audits

variable {x : Audited κ ε α} {y : Except ε α} {cs cs' : List κ} {a : α} {f : α → Audited κ ε β}
  {z : Except ε β}

theorem record_eq (h : Audits x (.ok a) cs) : record x = cs := by
  rw [record, show x.run = _ from h]
  rfl

theorem pure (a : α) : Audits (Pure.pure a : Audited κ ε α) (.ok a) [] := rfl

theorem lift (y : Except ε α) : Audits (liftM y : Audited κ ε α) y [] := by
  cases y <;> rfl

theorem tell (cs : List κ) : Audits (MonadWriter.tell cs : Audited κ ε PUnit) (.ok ⟨⟩) cs := rfl

theorem bind {g : α → Except ε β} (h : Audits x y cs) (hf : ∀ a, y = .ok a → Audits (f a) (g a) cs') :
    Audits (x >>= f) (y >>= g) (cs ++ cs') := by
  have hrun : (x >>= f).run =
      x.run >>= fun r => (fun s => (s.1, r.2 ++ s.2)) <$> (f r.1).run := rfl
  rw [Audits, hrun, show x.run = _ from h]
  cases y with
  | error e => rfl
  | ok a =>
    have hfa : (f a).run = _ := hf a rfl
    change (fun s => (s.1, cs ++ s.2)) <$> (f a).run = (g a).map fun b => (b, cs ++ cs')
    rw [hfa]
    cases g a <;> rfl

theorem charge (c : κ) (h : Audits x y cs) :
    Audits (MonadWriter.tell [c] >>= fun _ => x) y (c :: cs) :=
  (tell [c]).bind (g := fun _ => y) fun _ _ => h

theorem bind_ok (h : Audits x (.ok a) cs) (hf : Audits (f a) z cs') :
    Audits (x >>= f) z (cs ++ cs') :=
  h.bind (g := fun _ => z) fun b hb => by
    cases hb
    exact hf

theorem silent_bind (h : Audits x (.ok a) []) (hf : Audits (f a) z cs) : Audits (x >>= f) z cs :=
  h.bind_ok hf

theorem charge_bind {c : κ} (h : Audits x (.ok a) [c]) (hf : Audits (f a) z cs) :
    Audits (x >>= f) z (c :: cs) :=
  h.bind_ok hf

theorem bind_silent (h : Audits x (.ok a) cs) (hf : Audits (f a) z []) : Audits (x >>= f) z cs :=
  List.append_nil cs ▸ h.bind_ok hf

theorem foldlM {f : β → α → Audited κ ε β} {g : β → α → Except ε β} {cost : α → List κ}
    (h : ∀ b a, Audits (f b a) (g b a) (cost a)) (l : List α) (b : β) :
    Audits (l.foldlM f b) (l.foldlM g b) (l.flatMap cost) := by
  induction l generalizing b with
  | nil => exact .pure b
  | cons a l ih =>
    rw [List.foldlM_cons, List.foldlM_cons, List.flatMap_cons]
    exact (h b a).bind fun b' _ => ih b'

end Audits

end Audit
