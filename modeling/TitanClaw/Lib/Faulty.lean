import Mathlib.Data.List.TakeWhile

/-! # Calls that can fail, and retrying them

A call of a store ends in one of three ways: it is carried out and answered, it is
rejected before it had any effect, or it is carried out and its answer is lost, so
that the caller sees an error all the same. What a program of such calls has done
before it fails stays done: it is a program of `ExceptT` over `StateM`, not the
other way round. -/

namespace Faulty

open List

universe u

variable {σ ε α β ι ρ : Type u}

/-- How a call ends. -/
inductive Reply (ε : Type u) where
  | answered
  | rejected (e : ε)
  | lost (e : ε)

namespace Reply

/-- The call had its effect. -/
def reached : Reply ε → Bool
  | answered | lost _ => true
  | rejected _ => false

/-- The caller was told so. -/
def ok : Reply ε → Bool
  | answered => true
  | rejected _ | lost _ => false

theorem eq_answered {reply : Reply ε} (h : reply.ok = true) : reply = answered := by
  cases reply with
  | answered => rfl
  | rejected | lost => cases h

theorem reached_of_ok {reply : Reply ε} (h : reply.ok = true) : reply.reached = true := by
  rw [eq_answered h]
  rfl

variable {ε' : Type u} (f : ε → ε')

def mapError : Reply ε → Reply ε'
  | answered => answered
  | rejected e => rejected (f e)
  | lost e => lost (f e)

@[simp] theorem reached_mapError (reply : Reply ε) :
    (reply.mapError f).reached = reply.reached := by
  cases reply <;> rfl

@[simp] theorem ok_mapError (reply : Reply ε) : (reply.mapError f).ok = reply.ok := by
  cases reply <;> rfl

end Reply

abbrev StoreProg (σ ε α : Type u) := ExceptT ε (StateM σ) α

variable (m : StoreProg σ ε α)

/-- The result of a program, and the state it leaves behind either way. -/
def exec (s : σ) : Except ε α × σ := m.run.run s

variable (reply : Reply ε) (effect : σ → σ)

def call : StoreProg σ ε PUnit :=
  match reply with
  | .answered => modify effect
  | .rejected e => throw e
  | .lost e => do
      modify effect
      throw e

def query (fault : Option ε) (f : σ → α) : StoreProg σ ε α :=
  match fault with
  | none => f <$> get
  | some e => throw e

variable (a : α)

@[simp] theorem exec_pure (s : σ) : exec (pure a : StoreProg σ ε α) s = (.ok a, s) := rfl

variable (f : α → StoreProg σ ε β) (s : σ)

theorem exec_bind :
    exec (m >>= f) s =
      match exec m s with
      | (.ok a, s') => exec (f a) s'
      | (.error e, s') => (.error e, s') := by
  show (ExceptT.bindCont f (exec m s).1).run (exec m s).2 = _
  rcases exec m s with ⟨_ | _, _⟩ <;> rfl

@[simp] theorem exec_query_bind_none (f : σ → α) (g : α → StoreProg σ ε β) (s : σ) :
    exec (query none f >>= g) s = exec (g (f s)) s := rfl

@[simp] theorem exec_query_bind_some (e : ε) (f : σ → α) (g : α → StoreProg σ ε β) (s : σ) :
    exec (query (some e) f >>= g) s = (.error e, s) := rfl

@[simp] theorem exec_get_bind (f : σ → StoreProg σ ε α) (s : σ) :
    exec (get >>= f) s = exec (f s) s := rfl

@[simp] theorem exec_set_bind (s' : σ) (f : PUnit → StoreProg σ ε α) (s : σ) :
    exec (set s' >>= f) s = exec (f ⟨⟩) s' := rfl

@[simp] theorem exec_ofExcept_bind_ok :
    exec (ofExcept (.ok a : Except ε α) >>= f) s = exec (f a) s := rfl

@[simp] theorem exec_ofExcept_bind_error (e : ε) (f : α → StoreProg σ ε β) (s : σ) :
    exec (ofExcept (.error e : Except ε α) >>= f) s = (.error e, s) := rfl

/-- After a call comes the rest of the program, or nothing. -/
theorem exec_call_bind_state (f : PUnit → StoreProg σ ε β) (s : σ) :
    (exec (call reply effect >>= f) s).2
      = if reply.ok then (exec (f ⟨⟩) (effect s)).2
        else if reply.reached then effect s else s := by
  cases reply <;> rfl

theorem exec_call_pure_state :
    (exec (call reply effect >>= fun _ => (pure a : StoreProg σ ε α)) s).2
      = if reply.reached then effect s else s := by
  cases reply <;> rfl

theorem exec_call_pure_bind_state :
    (exec ((call reply effect >>= fun _ => (pure a : StoreProg σ ε α)) >>= f) s).2
      = if reply.ok then (exec (f a) (effect s)).2
        else if reply.reached then effect s else s := by
  cases reply <;> rfl

theorem exec_modifyGet_bind (f : σ → α × σ) (g : α → StoreProg σ ε β) (s : σ) :
    exec ((modifyGet f : StoreProg σ ε α) >>= g) s = exec (g (f s).1) (f s).2 := rfl

/-- The program changes nothing that can be seen through `view`. -/
def Silent (view : σ → ρ) (m : StoreProg σ ε α) : Prop := ∀ s, view (exec m s).2 = view s

variable {effect}

theorem silent_call_pure {view : σ → ρ} (heffect : ∀ s, view (effect s) = view s) (a : α) :
    Silent view (call reply effect >>= fun _ => (pure a : StoreProg σ ε α)) := by
  intro s
  rw [exec_call_pure_state]
  split
  · exact heffect s
  · rfl

/-- What comes after a program does not matter where it is silent. -/
theorem exec_bind_view {view : σ → ρ} {f : α → StoreProg σ ε β}
    (hf : ∀ a, Silent view (f a)) (s : σ) : view (exec (m >>= f) s).2 = view (exec m s).2 := by
  rw [exec_bind]
  rcases exec m s with ⟨e | a, s'⟩
  · rfl
  · exact hf a s'

/-- A call whose effect the store may refuse. -/
def attempt (effect : σ → Except ε σ) : StoreProg σ ε PUnit := do
  let s ← get
  let s' ← ofExcept (effect s)
  call reply fun _ => s'

/-- The program goes on in what is seen of a state as it does in the state, and keeps what the
two have to agree on. -/
def Local (view : σ → σ) (Inv : σ → Prop) (m : StoreProg σ ε α) : Prop :=
  ∀ s, Inv s → Inv (exec m s).2 ∧ exec m (view s) = ((exec m s).1, view (exec m s).2)

namespace Local

variable {view : σ → σ} {Inv : σ → Prop}

theorem pure (a : α) : Local view Inv (Pure.pure a : StoreProg σ ε α) := fun _ h => ⟨h, rfl⟩

theorem bind {m : StoreProg σ ε α} {f : α → StoreProg σ ε β} (hm : Local view Inv m)
    (hf : ∀ a, Local view Inv (f a)) : Local view Inv (m >>= f) := by
  intro s hs
  obtain ⟨hkept, hsame⟩ := hm s hs
  rw [exec_bind, exec_bind, hsame]
  rcases hexec : exec m s with ⟨e | a, s'⟩
  · rw [hexec] at hkept
    exact ⟨hkept, rfl⟩
  · rw [hexec] at hkept
    exact hf a s' hkept

theorem attempt {effect : σ → Except ε σ}
    (hview : ∀ s, Inv s → effect (view s) = (effect s).map view)
    (hkeeps : ∀ s s', Inv s → effect s = .ok s' → Inv s') :
    Local view Inv (attempt reply effect) := by
  intro s hs
  unfold Faulty.attempt
  rw [exec_get_bind, exec_get_bind, hview s hs]
  cases heffect : effect s with
  | error => exact ⟨hs, rfl⟩
  | ok s' =>
    have hs' : Inv s' := hkeeps s s' hs heffect
    cases reply with
    | answered | lost => exact ⟨hs', rfl⟩
    | rejected => exact ⟨hs, rfl⟩

end Local

/-! ## Programs that add to a log -/

/-- Whatever the state, the program succeeds or fails as `ok` says, and adds `rows` to the
log. -/
def Adds (log : σ → List ρ) (m : StoreProg σ ε α) (ok : Bool) (rows : List ρ) : Prop :=
  ∀ s, (exec m s).1.toBool = ok ∧ log (exec m s).2 = log s ++ rows

namespace Adds

variable {log : σ → List ρ} {m : StoreProg σ ε α}

theorem congr {ok ok' : Bool} {rows rows' : List ρ} (h : Adds log m ok rows)
    (hok : ok = ok') (hrows : rows = rows') : Adds log m ok' rows' :=
  hok ▸ hrows ▸ h

theorem pure (a : α) : Adds log (Pure.pure a : StoreProg σ ε α) true [] :=
  fun s => ⟨rfl, (append_nil (log s)).symm⟩

theorem call {effect : σ → σ} {rows : List ρ} (heffect : ∀ s, log (effect s) = log s ++ rows) :
    Adds log (call reply effect) reply.ok (if reply.reached then rows else []) := by
  intro s
  cases reply with
  | answered | lost => exact ⟨rfl, heffect s⟩
  | rejected => exact ⟨rfl, (append_nil (log s)).symm⟩

theorem call_of_same {effect : σ → σ} (heffect : ∀ s, log (effect s) = log s) :
    Adds log (Faulty.call reply effect) reply.ok [] := by
  have h : Adds log (Faulty.call reply effect) reply.ok (if reply.reached then [] else []) :=
    call reply fun s => (heffect s).trans (append_nil (log s)).symm
  rwa [ite_self] at h

/-- The second part adds its rows only if the first succeeds. -/
theorem bind {f : α → StoreProg σ ε β} {ok ok' : Bool} {rows rows' : List ρ}
    (hm : Adds log m ok rows) (hf : ∀ a, Adds log (f a) ok' rows') :
    Adds log (m >>= f) (ok && ok') (rows ++ if ok then rows' else []) := by
  intro s
  obtain ⟨hok, hlog⟩ := hm s
  rw [exec_bind]
  rcases h : exec m s with ⟨e | a, s'⟩
  · rw [h] at hok hlog
    have hfalse : ok = false := hok.symm
    subst hfalse
    exact ⟨rfl, by simpa using hlog⟩
  · rw [h] at hok hlog
    have htrue : ok = true := hok.symm
    subst htrue
    obtain ⟨hok', hlog'⟩ := hf a s'
    refine ⟨by simpa using hok', ?_⟩
    show log (exec (f a) s').2 = _
    rw [hlog', show log s' = log s ++ rows from hlog]
    simp

end Adds

/-- One attempt after another, up to the first that succeeds; `last` is the error seen
last. -/
def retry (attempt : ι → StoreProg σ ε α) : List ι → Option ε → σ → Except (Option ε) α × σ
  | [], last, s => (.error last, s)
  | x :: xs, _, s =>
      match exec (attempt x) s with
      | (.ok a, s') => (.ok a, s')
      | (.error e, s') => retry attempt xs (some e) s'

/-- It succeeds when one of the attempts does, and it adds the rows of every attempt up to
and with the first that succeeds. -/
theorem retry_adds {attempt : ι → StoreProg σ ε α} {log : σ → List ρ} {succeeds : ι → Bool}
    {rows : ι → List ρ} (hadds : ∀ x, Adds log (attempt x) (succeeds x) (rows x)) (xs : List ι)
    (last : Option ε) (s : σ) :
    (retry attempt xs last s).1.toBool = xs.any succeeds
      ∧ log (retry attempt xs last s).2
        = log s ++ ((xs.takeWhile fun x => !succeeds x).flatMap rows
            ++ (xs.find? succeeds).elim [] rows) := by
  induction xs generalizing last s with
  | nil => exact ⟨rfl, by simp [retry]⟩
  | cons x xs ih =>
    obtain ⟨hok, hlog⟩ := hadds x s
    rw [retry]
    rcases h : exec (attempt x) s with ⟨e | a, s'⟩
    · rw [h] at hok hlog
      have hfalse : succeeds x = false := hok.symm
      obtain ⟨ihok, ihlog⟩ := ih (some e) s'
      refine ⟨by simpa [hfalse] using ihok, ?_⟩
      rw [ihlog, show log s' = log s ++ rows x from hlog]
      simp [hfalse]
    · rw [h] at hok hlog
      have htrue : succeeds x = true := hok.symm
      refine ⟨by rw [any_cons, htrue]; rfl, ?_⟩
      rw [show log s' = log s ++ rows x from hlog]
      simp [htrue]

end Faulty
