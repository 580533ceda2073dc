import SmpVxd.Protocol.Dispatch

/-!
# Every lock is given back

Between taking a status word and giving it back no CPU waits for anything. The rank
of a program point is the number of statements up to its `atomic_unlock`, so the
holder of a word gives it back by itself.
-/

namespace SmpVxd

open Transition

/-- A bound on the statements up to the `atomic_unlock`. -/
def ApPc.rank : ApPc → Nat
  | .switch _ => 4
  | .incLoad => 3
  | .incStore _ | .clearIdleLock _ => 2
  | .atomicUnlock _ _ | .kernelBoot => 1
  | .off | .atomicLock | .sti | .hlt | .halted | .switchtask | .ring3 _ => 0

def Bsp.rank : Bsp → Nat
  | .apSwitch _ _ | .bspTest _ _ => 4
  | .apStore _ _ | .incLoad _ => 3
  | .apWakeup _ _ | .incStore _ _ | .destroyDiscard _ _ _ => 2
  | .apUnlock _ _ | .bspUnlock _ _ _ | .destroyUnlock _ _ _ => 1
  | _ => 0

variable {cfg : Config} {s t : Sys} {a : Action} {i j : Nat} {v w : Status}

theorem apStep_enabled (cfg : Config) (held : (s.ap i).pc.held = some v) (started : (s.ap i).pc ≠ .off)
    (now : BitVec 64) (msClock : Dword) : ∃ t, apStep cfg s i now msClock = some t := by
  cases pc : (s.ap i).pc with
  | off => exact absurd pc started
  | switch v =>
      cases v with
      | running =>
          simp only [apStep, pc]
          split
          · split <;> exact ⟨_, rfl⟩
          · exact ⟨_, rfl⟩
      | _ => simp [apStep, pc]
  | atomicLock | sti | hlt | halted | switchtask | ring3 =>
      rw [pc] at held
      cases held
  | _ => simp [apStep, pc]

/-- The holder of its own word comes closer to its `atomic_unlock`. -/
theorem ApStep.release (locks : Locks s) (h : ApStep i s t) (held : (s.ap i).pc.held = some v) :
    (t.ap i).status ≠ .busy ∨
      ((∃ w, (t.ap i).pc.held = some w) ∧ (t.ap i).pc ≠ .off) ∧
        (t.ap i).pc.rank < (s.ap i).pc.rank := by
  cases h with
  | kernelBoot pc => exact .inl (by simp)
  | spin pc _ =>
      rw [pc] at held
      cases held
  | lock pc _ =>
      rw [pc] at held
      cases held
  | branch x w rc now pc _ => exact .inr (by simp [pc, ApPc.held, ApPc.rank])
  | notify ts pc _ _ => exact .inr (by simp [pc, ApPc.held, ApPc.rank])
  | silent pc _ => exact .inr (by simp [pc, ApPc.held, ApPc.rank])
  | discard now pc => exact .inr (by simp [pc, ApPc.held, ApPc.rank])
  | clearIdleLock lock pc => exact .inr (by simp [Sys.setAp, pc, ApPc.held, ApPc.rank])
  | incLoad pc => exact .inr (by simp [pc, ApPc.held, ApPc.rank])
  | incStore cnt pc => exact .inr (by simp [Sys.setAp, pc, ApPc.held, ApPc.rank])
  | unlock x rc pc =>
      refine .inl ?_
      rw [Sys.setAp_self]
      exact (locks i).held_ne (a := .ap) (v := x) (by simp [Sys.word, pc, ApPc.held])
  | sti pc =>
      rw [pc] at held
      cases held
  | hlt pc =>
      rw [pc] at held
      cases held
  | switchtask fpu pc =>
      rw [pc] at held
      cases held

/-- While the BSP holds a word, its next statement is enabled. -/
theorem bspStep_enabled (ledger : Ledger cfg s) (lock : s.bsp.lock = some (i, v)) :
    ∃ t, bspStep cfg s = some t := by
  have ok := ledger.bsp
  unfold bspStep
  generalize s.bsp = b at lock ok
  cases b with
  | apSwitch l v =>
      obtain ⟨ts, found, _⟩ := ok.1
      simp only [found]
      split
      · split <;> exact ⟨_, rfl⟩
      · exact ⟨_, rfl⟩
  | apStore l v =>
      obtain ⟨ts, found, _⟩ := ok.1
      simp only [found]
      exact ⟨_, rfl⟩
  | apWakeup l v =>
      dsimp only
      split <;> exact ⟨_, rfl⟩
  | bspTest l v =>
      dsimp only
      split <;> exact ⟨_, rfl⟩
  | destroyDiscard tid cpu v => exact ⟨_, rfl⟩
  | destroyUnlock tid cpu v => exact ⟨_, rfl⟩
  | apUnlock l v => exact ⟨_, rfl⟩
  | incLoad l => exact ⟨_, rfl⟩
  | incStore l cnt => exact ⟨_, rfl⟩
  | bspUnlock l v rc => exact ⟨_, rfl⟩
  | _ => cases lock

theorem BspGoto.rank {b c : Bsp} (h : BspGoto cfg s b c) (lock : b.lock ≠ none) :
    c.rank < b.rank := by
  cases h with
  | noLock l v ts _ _ _ => simp [Bsp.rank]
  | notFree l v _ => simp [Bsp.rank]
  | noWakeup l v _ => simp [Bsp.rank]
  | notCargo l v _ => simp [Bsp.rank]
  | incLoad l => simp [Bsp.rank]
  | _ => exact absurd rfl lock

/-- The BSP comes closer to the `atomic_unlock` of the word it holds. -/
theorem BspStep.release (locks : Locks s) (h : BspStep cfg s t) (lock : s.bsp.lock = some (i, v)) :
    (t.ap i).status ≠ .busy ∨ (∃ w, t.bsp.lock = some (i, w)) ∧ t.bsp.rank < s.bsp.rank := by
  have held : s.bsp.lock ≠ none := by simp [lock]
  cases h with
  | goto b h => exact .inr ⟨⟨v, h.lock.trans lock⟩, h.rank held⟩
  | startAp j pc _ _ => exact absurd (by rw [pc]; rfl) held
  | awaitAp j pc => exact absurd (by rw [pc]; rfl) held
  | spin cpu next at_ _ => exact absurd at_.lock.1 held
  | lock cpu next at_ _ => exact absurd at_.lock.1 held
  | unlock cpu w b at_ =>
      cases at_.lock.1.symm.trans lock
      refine .inl ?_
      simp only [Sys.setAp, Function.update_self]
      exact (locks i).held_ne (a := .bsp) (Bsp.held_of_lock lock)
  | discard tid cpu w pc =>
      rw [pc] at lock ⊢
      cases lock
      exact .inr ⟨⟨_, rfl⟩, by simp [Bsp.rank]⟩
  | free tid pc => exact absurd (by rw [pc]; rfl) held
  | setIdleLock l w ts pc _ _ _ =>
      rw [pc] at lock ⊢
      exact .inr ⟨⟨v, lock⟩, by simp [Bsp.rank]⟩
  | handOff l w ts pc found =>
      rw [pc] at lock ⊢
      cases lock
      exact .inr ⟨⟨_, handOff_lock l v ts⟩, by simp [SmpVxd.handOff, Bsp.rank]⟩
  | wakeup l w pc _ =>
      rw [pc] at lock ⊢
      exact .inr ⟨⟨v, lock⟩, by simp [Bsp.rank]⟩
  | decStore l cnt pc => exact absurd (by rw [pc]; rfl) held
  | takeBack l pc =>
      rw [pc] at lock ⊢
      cases lock
      exact .inr ⟨⟨_, takeBack_lock l⟩, by simp [SmpVxd.takeBack, Bsp.rank]⟩
  | incStore l cnt pc =>
      rw [pc] at lock ⊢
      cases lock
      exact .inr ⟨⟨_, rfl⟩, by simp [Bsp.rank]⟩
  | switchIn curTid cbsNew pc => exact absurd (by rw [pc]; rfl) held

/-- An AP that holds its word gives it back by executing alone, and keeps what its own
statements keep. -/
theorem Consistent.ap_release {K : Sys → Prop} (kept : ∀ s t, Consistent cfg s → K s → ApStep i s t → K t)
    (inv : Consistent cfg s) (present : cfg.present i = true) (started : (s.ap i).pc ≠ .off)
    (held : (s.ap i).pc.held = some v) (start : K s) :
    ∃ n t, Run (Step cfg) s (List.replicate n (.ap i 0 0)) t ∧ (t.ap i).status ≠ .busy ∧
      Consistent cfg t ∧ K t := by
  refine exists_run_replicate
    (P := fun s => (Consistent cfg s ∧ K s) ∧ (∃ w, (s.ap i).pc.held = some w) ∧ (s.ap i).pc ≠ .off)
    (Q := fun s => (s.ap i).status ≠ .busy ∧ Consistent cfg s ∧ K s) (fun s => (s.ap i).pc.rank) ?_
    ⟨⟨inv, start⟩, ⟨v, held⟩, started⟩
  rintro s ⟨⟨inv, start⟩, ⟨w, held⟩, started⟩
  obtain ⟨t, enabled⟩ := apStep_enabled cfg held started 0 0
  have taken : Step cfg s (.ap i 0 0) t := by
    change SmpVxd.step cfg s (.ap i 0 0) = some t
    simp only [SmpVxd.step, present, if_true, enabled]
  have next := inv.step taken
  have out := apStep_outcome enabled
  refine ⟨t, taken, ?_⟩
  obtain free | ⟨closer, less⟩ := out.release inv.locks held
  · exact .inl ⟨free, next, kept s t inv start out⟩
  · exact .inr ⟨⟨⟨next, kept s t inv start out⟩, closer⟩, less⟩

/-- So does the BSP. -/
theorem Consistent.bsp_release (inv : Consistent cfg s) (lock : s.bsp.lock = some (i, v)) :
    ∃ n t, Run (Step cfg) s (List.replicate n .bsp) t ∧ (t.ap i).status ≠ .busy := by
  refine exists_run_replicate
    (P := fun s => Consistent cfg s ∧ ∃ w, s.bsp.lock = some (i, w))
    (Q := fun s => (s.ap i).status ≠ .busy) (fun s => s.bsp.rank) ?_ ⟨inv, v, lock⟩
  rintro s ⟨inv, w, lock⟩
  obtain ⟨t, enabled⟩ := bspStep_enabled inv.ledger lock
  have taken : Step cfg s .bsp t := enabled
  refine ⟨t, taken, ?_⟩
  obtain free | ⟨closer, less⟩ := (bspStep_outcome enabled).release inv.locks lock
  · exact .inl free
  · exact .inr ⟨⟨inv.step taken, closer⟩, less⟩

/-- An AP that is past `_kernel_boot` stays so. -/
theorem Outcome.booted (h : Outcome cfg s a t) (booted : (s.ap i).pc.unbooted = false) :
    (t.ap i).pc.unbooted = false := by
  obtain same | ⟨before, after, _⟩ := h.unbooted (i := i)
  · exact same.trans booted
  · exact after

/-- What every state satisfies that is reached from a successful `smp_init`. -/
structure Sound (cfg : Config) (s : Sys) : Prop where
  consistent : Consistent cfg s
  engaged : ∀ i, Engaged s i
  booted : ∀ i, (s.ap i).pc.unbooted = false

theorem Sound.step (sound : Sound cfg s) (h : Step cfg s a t) : Sound cfg t where
  consistent := sound.consistent.step h
  engaged i := h.outcome.engaged sound.consistent (sound.engaged i)
  booted i := h.outcome.booted (sound.booted i)

theorem sound_initialised : Sound cfg (initialised cfg) :=
  ⟨consistent_initialised, fun _ => engaged_initialised, fun _ => rfl⟩

end SmpVxd
