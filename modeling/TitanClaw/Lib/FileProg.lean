import Mathlib.Logic.Basic

/-! # Programs over files

A program reads and changes a state and ends in a value or an error; the
changes made before an error STAY, as they do on a disk. `Keeps` says that a
program leaves some view of the state alone, and has one rule per program
former, so a frame condition is proved along the program text.

The file operations at the end are the ones of an ordinary file API. Each takes
the fault the outside world injects into it, if any. -/

/-- A program over `σ` with errors in `ε`. -/
structure Prog (σ ε α : Type) where
  exec : σ → Except ε α × σ

namespace Prog

variable {σ ε ε' α β γ : Type}

instance : Monad (Prog σ ε) where
  pure a := ⟨fun s => (.ok a, s)⟩
  bind m k := ⟨fun s =>
    match m.exec s with
    | (.ok a, s') => (k a).exec s'
    | (.error e, s') => (.error e, s')⟩

/-- End with an error. -/
def fail (e : ε) : Prog σ ε α := ⟨fun s => (.error e, s)⟩

def mapError (f : ε → ε') (m : Prog σ ε α) : Prog σ ε' α := ⟨fun s =>
  match m.exec s with
  | (.ok a, s') => (.ok a, s')
  | (.error e, s') => (.error (f e), s')⟩

variable (m : Prog σ ε α)

/-- The outcome as a value; never fails itself. -/
def attempt : Prog σ ε' (Except ε α) := ⟨fun s => (.ok (m.exec s).1, (m.exec s).2)⟩

@[simp] theorem exec_pure (a : α) (s : σ) : (pure a : Prog σ ε α).exec s = (.ok a, s) := rfl

@[simp] theorem exec_fail (e : ε) (s : σ) : (fail e : Prog σ ε α).exec s = (.error e, s) := rfl

@[simp] theorem exec_attempt (s : σ) :
    (attempt m : Prog σ ε' (Except ε α)).exec s = (.ok (m.exec s).1, (m.exec s).2) := rfl

variable (k : α → Prog σ ε β)

theorem exec_bind (s : σ) :
    (m >>= k).exec s
      = match m.exec s with
        | (.ok a, s') => (k a).exec s'
        | (.error e, s') => (.error e, s') := rfl

variable {m}

theorem exec_bind_ok {s s' : σ} {a : α} (h : m.exec s = (.ok a, s')) (k : α → Prog σ ε β) :
    (m >>= k).exec s = (k a).exec s' := by
  rw [exec_bind, h]

theorem exec_bind_error {s s' : σ} {e : ε} (h : m.exec s = (.error e, s')) (k : α → Prog σ ε β) :
    (m >>= k).exec s = (.error e, s') := by
  rw [exec_bind, h]

variable {k}

/-- A sequence succeeded, so both parts did. -/
theorem bind_ok {s s' : σ} {b : β} (h : (m >>= k).exec s = (.ok b, s')) :
    ∃ a s₁, m.exec s = (.ok a, s₁) ∧ (k a).exec s₁ = (.ok b, s') := by
  rw [exec_bind] at h
  rcases hm : m.exec s with ⟨r, s₁⟩
  rw [hm] at h
  cases r with
  | error => simp at h
  | ok a => exact ⟨a, s₁, rfl, h⟩

/-! ## Frame rules -/

/-- The program leaves `view` of the state alone, however it ends. -/
def Keeps (view : σ → γ) (m : Prog σ ε α) : Prop := ∀ s, view (m.exec s).2 = view s

variable {view : σ → γ}

theorem Keeps.apply (hm : Keeps view m) {s s' : σ}
    {r : Except ε α} (h : m.exec s = (r, s')) : view s' = view s := by
  have hs := hm s
  rwa [h] at hs

theorem Keeps.pure (a : α) : Keeps view (Pure.pure a : Prog σ ε α) := by
  intro s
  rfl

theorem Keeps.fail (e : ε) : Keeps view (Prog.fail e : Prog σ ε α) := by
  intro s
  rfl

theorem Keeps.bind (hm : Keeps view m) (hk : ∀ a, Keeps view (k a)) : Keeps view (m >>= k) := by
  intro s
  have hs := hm s
  rw [exec_bind]
  rcases hms : m.exec s with ⟨r, s'⟩
  rw [hms] at hs
  cases r with
  | error => exact hs
  | ok a => exact (hk a s').trans hs

theorem Keeps.mapError {f : ε → ε'} {m : Prog σ ε α} (hm : Keeps view m) :
    Keeps view (Prog.mapError f m) := by
  intro s
  have hs := hm s
  simp only [Prog.mapError]
  split
  · rename_i heq
    rwa [heq] at hs
  · rename_i heq
    rwa [heq] at hs

theorem Keeps.attempt {m : Prog σ ε α} (hm : Keeps view m) :
    Keeps view (Prog.attempt m : Prog σ ε' (Except ε α)) := by
  intro s
  exact hm s

theorem Keeps.ite {c : Prop} [Decidable c] {m n : Prog σ ε α} (hm : Keeps view m)
    (hn : Keeps view n) : Keeps view (if c then m else n) := by
  split
  · exact hm
  · exact hn

/-- The program keeps an invariant, however it ends. -/
def Maintains (inv : σ → Prop) (m : Prog σ ε α) : Prop := ∀ s, inv s → inv (m.exec s).2

variable {inv : σ → Prop}

theorem Keeps.maintains (hm : Keeps id m) : Maintains inv m := by
  intro s hs
  rwa [show (m.exec s).2 = s from hm s]

theorem Maintains.bind (hm : Maintains inv m) (hk : ∀ a, Maintains inv (k a)) :
    Maintains inv (m >>= k) := by
  intro s hs
  have hinv := hm s hs
  rw [exec_bind]
  rcases hms : m.exec s with ⟨r, s'⟩
  rw [hms] at hinv
  cases r with
  | error => exact hinv
  | ok a => exact hk a s' hinv

end Prog

/-! ## Files -/

def Files : Type := String → Option String

namespace Files

variable (files : Files) (path text : String)

def set : Files := fun p => if p = path then some text else files p

@[simp] theorem set_same : files.set path text path = some text := by simp [set]

@[simp] theorem set_other {path p : String} (h : p ≠ path) : files.set path text p = files p := by
  simp [set, h]

inductive IoError where
  | notFound
  | other (reason : String)
  deriving DecidableEq

/-- What the outside world does to one operation: let it work, or fail with a
reason, possibly after some text has been left in the file. -/
inductive Fault where
  | none
  | fails (reason : String)
  | failsLeaving (reason text : String)

variable (fault : Fault)

/-- An operation that changes no file: locking, seeking, syncing, creating a
directory. -/
def sideStep : Prog Files IoError Unit :=
  match fault with
  | .none => pure ()
  | .fails e | .failsLeaving e _ => Prog.fail (.other e)

/-- Open a file, with the `create` and `truncate` options. -/
def openFile (path : String) (create truncate : Bool) : Prog Files IoError Unit := ⟨fun files =>
  match fault with
  | .fails e | .failsLeaving e _ => (.error (.other e), files)
  | .none =>
      match files path with
      | some _ => (.ok (), if truncate then files.set path "" else files)
      | none => if create then (.ok (), files.set path "") else (.error .notFound, files)⟩

def readToString (path : String) : Prog Files IoError String :=
  ⟨fun files =>
    match fault with
    | .fails e | .failsLeaving e _ => (.error (.other e), files)
    | .none =>
        match files path with
        | some text => (.ok text, files)
        | none => (.error .notFound, files)⟩

/-- Replace a file's text. -/
def write (path text : String) : Prog Files IoError Unit :=
  ⟨fun files =>
    match fault with
    | .none => (.ok (), files.set path text)
    | .fails e => (.error (.other e), files)
    | .failsLeaving e left => (.error (.other e), files.set path left)⟩

variable {p path : String} {γ : Type} {view : Files → γ}

theorem keeps_sideStep : Prog.Keeps view (sideStep fault) := by
  cases fault with
  | none => exact Prog.Keeps.pure ()
  | fails | failsLeaving => exact Prog.Keeps.fail _

theorem keeps_readToString (path : String) : Prog.Keeps view (readToString fault path) := by
  intro files
  simp only [readToString]
  split
  · rfl
  · rfl
  · split <;> rfl

theorem keeps_openFile_plain
    (path : String) : Prog.Keeps view (openFile fault path false false) := by
  intro files
  simp only [openFile]
  split
  · rfl
  · rfl
  · split <;> rfl

theorem keeps_openFile {create truncate : Bool} (h : p ≠ path) :
    Prog.Keeps (fun files : Files => files p) (openFile fault path create truncate) := by
  intro files
  simp only [openFile]
  split
  · rfl
  · rfl
  split
  · split
    · exact set_other files "" h
    · rfl
  · split
    · exact set_other files "" h
    · rfl

theorem keeps_write {text : String} (h : p ≠ path) :
    Prog.Keeps (fun files : Files => files p) (write fault path text) := by
  intro files
  cases fault with
  | none => exact set_other files text h
  | fails => rfl
  | failsLeaving e left => exact set_other files left h

end Files
