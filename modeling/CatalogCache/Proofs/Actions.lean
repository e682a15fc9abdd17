import CatalogCache.World
import Mathlib

/-!
# Actions step by step

What an action makes of a world, opened one bind at a time.
-/

namespace CatalogCache

def World.on (w : World) (d : Disk) : World := { w with disk := d }

/-- The world after some lines more in the log. -/
def World.logged (w : World) (lines : List LogLine) : World :=
  { w with trace := w.trace ++ lines.map .log }

/-- The world with another disk, after some events more. -/
def World.after (w : World) (d : Disk) (events : List Event) : World :=
  { w with disk := d, trace := w.trace ++ events }

@[simp] theorem World.after_after (w : World) (d d' : Disk) (events more : List Event) :
    (w.after d events).after d' more = w.after d' (events ++ more) := by
  simp [World.after]

theorem World.after_nil (w : World) : w.after w.disk [] = w := by
  simp [World.after]

@[simp] theorem World.logged_nil (w : World) : w.logged [] = w := by
  simp [World.logged]

@[simp] theorem World.logged_logged (w : World) (lines more : List LogLine) :
    (w.logged lines).logged more = w.logged (lines ++ more) := by
  simp [World.logged]

namespace Action

variable {α β : Type}

/-- The result of an action in a world, and the world after it. -/
def exec (a : Action α) (w : World) : Except Failure α × World := StateT.run (ExceptT.run a) w

@[simp] theorem exec_pure (x : α) (w : World) : (pure x : Action α).exec w = (.ok x, w) := rfl

@[simp] theorem exec_get (w : World) : (get : Action World).exec w = (.ok w, w) := rfl

@[simp] theorem exec_set (w' w : World) : (set w' : Action PUnit).exec w = (.ok (), w') := rfl

@[simp] theorem exec_log (level : Level) (topic : Topic) (message : List Text) (w : World) :
    (log level topic message).exec w = (.ok (), w.logged [⟨level, topic, message.flatten⟩]) :=
  rfl

@[simp] theorem exec_ofExcept (r : Except Failure α) (w : World) :
    (ofExcept r).exec w = (r, w) := by
  cases r <;> rfl

@[simp] theorem exec_ask (remote : Text) (r : Request) (w : World) :
    (ask remote r).exec w =
      (w.remotes remote (w.askedOf remote) r, w.record (.asked remote r)) := by
  show (ofExcept (w.remotes remote (w.askedOf remote) r)).exec (w.record (.asked remote r)) = _
  rw [exec_ofExcept]

theorem exec_bind (a : Action α) (f : α → Action β) (w : World) :
    (a >>= f).exec w = match a.exec w with
      | (.ok x, w') => (f x).exec w'
      | (.error e, w') => (.error e, w') := by
  simp only [exec, ExceptT.run_bind, StateT.run_bind]
  cases StateT.run (ExceptT.run a) w with
  | mk r w' => cases r <;> rfl

theorem exec_bind_ok {a : Action α} {w w' : World} {x : α} (h : a.exec w = (.ok x, w'))
    (f : α → Action β) : (a >>= f).exec w = (f x).exec w' := by
  rw [exec_bind, h]

theorem exec_bind_error {a : Action α} {w w' : World} {e : Failure}
    (h : a.exec w = (.error e, w')) (f : α → Action β) :
    (a >>= f).exec w = (.error e, w') := by
  rw [exec_bind, h]

theorem exec_map (f : α → β) (a : Action α) (w : World) :
    (f <$> a).exec w = ((a.exec w).1.map f, (a.exec w).2) := by
  show (a >>= fun x => pure (f x)).exec w = _
  rw [exec_bind]
  cases a.exec w with
  | mk r w' => cases r <;> rfl

@[simp] theorem exec_attempt (a : Action α) (w : World) :
    (attempt a).exec w = (.ok (a.exec w).1, (a.exec w).2) := by
  rfl

/-! ## Actions that only write to the log -/

/-- The action gives a result and leaves nothing but lines in the log. -/
def Says (a : Action α) (w : World) (r : Except Failure α) : Prop :=
  ∃ lines, a.exec w = (r, w.logged lines)

theorem says_of_exec {a : Action α} {w : World} {r : Except Failure α} (h : a.exec w = (r, w)) :
    a.Says w r :=
  ⟨[], by rw [h, World.logged_nil]⟩

theorem says_log (level : Level) (topic : Topic) (message : List Text) (w : World) :
    (log level topic message).Says w (.ok ()) :=
  ⟨_, exec_log level topic message w⟩

theorem Says.attempt {a : Action α} {w : World} {r : Except Failure α} (h : a.Says w r) :
    (attempt a).Says w (.ok r) := by
  obtain ⟨lines, h⟩ := h
  exact ⟨lines, by rw [exec_attempt, h]⟩

theorem Says.bind {a : Action α} {f : α → Action β} {w : World} {x : α} {r : Except Failure β}
    (ha : a.Says w (.ok x)) (hf : ∀ lines, (f x).Says (w.logged lines) r) :
    (a >>= f).Says w r := by
  obtain ⟨lines, ha⟩ := ha
  obtain ⟨more, hf⟩ := hf lines
  exact ⟨lines ++ more, by rw [exec_bind_ok ha, hf, World.logged_logged]⟩

theorem Says.bind_error {a : Action α} {f : α → Action β} {w : World} {e : Failure}
    (ha : a.Says w (.error e)) : (a >>= f).Says w (.error e) := by
  obtain ⟨lines, ha⟩ := ha
  exact ⟨lines, exec_bind_error ha f⟩

/-- The action gives a result and leaves a disk, and else nothing but lines in the log. -/
def Ends (a : Action α) (w : World) (r : Except Failure α) (d : Disk) : Prop :=
  ∃ lines, a.exec w = (r, (w.on d).logged lines)

theorem Ends.of_exec {a : Action α} {f : α → Action β} {w : World} {d : Disk} {x : α}
    {r : Except Failure β} (ha : a.exec w = (.ok x, w.on d)) (hf : (f x).Says (w.on d) r) :
    (a >>= f).Ends w r d := by
  obtain ⟨lines, hf⟩ := hf
  exact ⟨lines, by rw [exec_bind_ok ha, hf]⟩

end Action

end CatalogCache
