import SmpVxd.Protocol.Lock

/-!
# The logical value of a status word

Behind the lock bit, a status word always carries one logical value: the copy of
its holder, or the word itself when nobody holds it. Taking the word and giving it
back pass the value on; `ApMove` and `BspMove` list the statements that change it.
-/

namespace SmpVxd

open Transition WordLock

variable {cfg : Config} {s t : Sys} {i j : Nat} {v w : Status}

theorem carries_value (s : Sys) (i : Nat) : (s.word i).Carries (s.value i) := by
  unfold Sys.value
  split
  · exact .inl ⟨.ap, ‹_›⟩
  · rename_i ap
    cases bsp : s.bsp.held i with
    | some v => exact .inl ⟨.bsp, bsp⟩
    | none =>
        refine .inr ⟨?_, rfl⟩
        rintro (_ | _)
        · exact ap
        · exact bsp

theorem Locks.value_eq (locks : Locks s) (h : (s.word i).Carries v) : s.value i = v :=
  (locks i).carries_unique (carries_value s i) h

theorem value_of_ap (held : (s.ap i).pc.held = some v) : s.value i = v := by
  simp [Sys.value, held]

theorem Locks.value_of_bsp (locks : Locks s) (held : s.bsp.held i = some v) : s.value i = v :=
  locks.value_eq (.inl ⟨.bsp, held⟩)

theorem Locks.value_of_free (locks : Locks s) (free : (s.ap i).status ≠ .busy) :
    s.value i = (s.ap i).status :=
  locks.value_eq (.inr ⟨(locks i).none_of_ne free, rfl⟩)

theorem value_congr (status : (t.ap i).status = (s.ap i).status)
    (ap : (t.ap i).pc.held = (s.ap i).pc.held) (bsp : t.bsp.held i = s.bsp.held i) :
    t.value i = s.value i := by
  simp only [Sys.value, status, ap, bsp]

/-- A step in which no holder replaces its copy changes no logical value. -/
theorem Locks.value_kept (locks : Locks s) {e : Option (Event Status)}
    (h : WordLock.Step .busy (s.word i) (t.word i) e)
    (ap : ∀ v w, (s.ap i).pc.held = some v → (t.ap i).pc.held = some w → w = v)
    (bsp : ∀ v w, s.bsp.held i = some v → t.bsp.held i = some w → w = v) :
    t.value i = s.value i :=
  ((locks i).step h).carries_unique (carries_value t i)
    ((locks i).carries_step h (fun agent => by cases agent; exacts [ap, bsp]) (carries_value s i))

theorem ApFrame.value (h : ApFrame j s t) (ne : i ≠ j) : t.value i = s.value i :=
  value_congr (by rw [h.others i ne]) (by rw [h.others i ne]) (by rw [h.bsp])

/-- The moves of the logical value that an AP makes, with the program point. -/
inductive ApMove : ApPc → Status → Status → Prop where
  | sleep : ApMove (.switch .ready) .ready .sleep
  | load : ApMove (.switch .loaded) .loaded .running
  | finish : ApMove (.switch .running) .running .cargo
  | notify (lock) : ApMove (.clearIdleLock lock) .running .cargo
  | discard : ApMove (.switch .dircard) .dircard .ready

/-- What an AP does to its copy of the value. -/
theorem ApStep.held (h : ApStep i s t) :
    (∀ v w, (s.ap i).pc.held = some v → (t.ap i).pc.held = some w → w = v) ∨
      ∃ v w, (s.ap i).pc.held = some v ∧ (t.ap i).pc.held = some w ∧ ApMove (s.ap i).pc v w := by
  cases h with
  | kernelBoot pc => exact .inl fun v w _ h => by simp [ApPc.held] at h
  | spin pc busy => exact .inl fun v w h h' => Option.some.inj (h'.symm.trans h)
  | lock pc free => exact .inl fun v w h _ => by simp [pc, ApPc.held] at h
  | branch v w rc now pc branch =>
      cases branch with
      | stay _ _ _ _ => exact .inl fun v w => by simp +contextual [pc, ApPc.held]
      | sleep => exact .inr ⟨.ready, .sleep, by rw [pc]; rfl, by simp [ApPc.held], pc ▸ .sleep⟩
      | load => exact .inr ⟨.loaded, .running, by rw [pc]; rfl, by simp [ApPc.held], pc ▸ .load⟩
  | notify ts pc found lock => exact .inl fun v w => by simp +contextual [pc, ApPc.held]
  | silent pc absent =>
      exact .inr ⟨.running, .cargo, by rw [pc]; rfl, by simp [ApPc.held], pc ▸ .finish⟩
  | discard now pc =>
      exact .inr ⟨.dircard, .ready, by rw [pc]; rfl, by simp [ApPc.held], pc ▸ .discard⟩
  | clearIdleLock lock pc =>
      exact .inr ⟨.running, .cargo, by rw [pc]; rfl, by simp [Sys.setAp, ApPc.held],
        pc ▸ .notify lock⟩
  | incLoad pc => exact .inl fun v w => by simp +contextual [pc, ApPc.held]
  | incStore cnt pc => exact .inl fun v w => by simp +contextual [Sys.setAp, pc, ApPc.held]
  | unlock v rc pc =>
      refine .inl fun _ _ _ h => ?_
      rw [Sys.setAp_self] at h
      dsimp only at h
      split at h
      · cases h
      · split at h <;> cases h
  | sti pc => exact .inl fun v w h => by simp [pc, ApPc.held] at h
  | hlt pc => exact .inl fun v w h => by simp [pc, ApPc.held] at h
  | switchtask fpu pc => exact .inl fun v w h => by simp [pc, ApPc.held] at h

theorem ApStep.value (locks : Locks s) (h : ApStep i s t) :
    t.value i = s.value i ∨ ApMove (s.ap i).pc (s.value i) (t.value i) := by
  obtain kept | ⟨v, w, before, after, move⟩ := h.held
  · refine .inl (locks.value_kept (h.word 0 0) kept fun v w hv hw => ?_)
    rw [h.frame.bsp, hv] at hw
    exact (Option.some.inj hw).symm
  · rw [value_of_ap before, value_of_ap after]
    exact .inr move

/-- The moves of the logical value of slot `i` that the BSP makes. -/
inductive BspMove (i : Nat) : Bsp → Status → Status → Prop where
  | handOff (l v) : l.cpu = i → BspMove i (.apStore l v) v .loaded
  | takeBack (l) : l.cpu = i → BspMove i (.bspTest l .cargo) .cargo .ready
  | discard (tid v) : BspMove i (.destroyDiscard tid i v) v .dircard

/-- What the BSP does to its copy of a value. -/
theorem BspStep.lock_cases (h : BspStep cfg s t) :
    s.bsp.lock = none ∨ t.bsp.lock = none ∨ t.bsp.lock = s.bsp.lock ∨
      ∃ cpu v w, s.bsp.lock = some (cpu, v) ∧ t.bsp.lock = some (cpu, w) ∧ BspMove cpu s.bsp v w := by
  cases h with
  | goto b h => exact .inr (.inr (.inl h.lock))
  | startAp j pc _ _ => exact .inl (by rw [pc]; rfl)
  | awaitAp j pc => exact .inl (by rw [pc]; rfl)
  | spin cpu next at_ _ => exact .inl at_.lock.1
  | lock cpu next at_ _ => exact .inl at_.lock.1
  | unlock cpu v b at_ => exact .inr (.inl at_.lock.2)
  | discard tid cpu v pc =>
      exact .inr (.inr (.inr ⟨cpu, v, .dircard, by rw [pc]; rfl, rfl, pc ▸ .discard tid v⟩))
  | free tid pc => exact .inr (.inl rfl)
  | setIdleLock l v ts pc _ _ _ => exact .inr (.inr (.inl (by rw [pc]; rfl)))
  | handOff l v ts pc found =>
      exact .inr (.inr (.inr ⟨l.cpu, v, .loaded, by rw [pc]; rfl, rfl, pc ▸ .handOff l v rfl⟩))
  | wakeup l v pc _ => exact .inr (.inr (.inl (by rw [pc]; rfl)))
  | decStore l cnt pc => exact .inl (by rw [pc]; rfl)
  | takeBack l pc =>
      exact .inr (.inr (.inr ⟨l.cpu, .cargo, .ready, by rw [pc]; rfl, rfl, pc ▸ .takeBack l rfl⟩))
  | incStore l cnt pc => exact .inr (.inr (.inl (by rw [pc]; rfl)))
  | switchIn curTid cbsNew pc => exact .inl (by rw [pc]; rfl)

/-- The BSP leaves the program points of the APs alone, once they are started. -/
theorem BspStep.pc (h : BspStep cfg s t) (i : Nat) :
    (t.ap i).pc = (s.ap i).pc ∨ (s.ap i).pc = .off ∧ (t.ap i).pc = .kernelBoot := by
  cases h with
  | startAp j pc _ off =>
      by_cases same : i = j
      · subst same
        exact .inr ⟨off, by simp⟩
      · exact .inl (by rw [Sys.setAp_ne _ _ _ same])
  | lock cpu next at_ _ =>
      by_cases same : i = cpu
      · simp [Sys.setAp, same]
      · simp [Sys.setAp, Function.update_of_ne same]
  | unlock cpu v b at_ =>
      by_cases same : i = cpu
      · simp [Sys.setAp, same]
      · simp [Sys.setAp, Function.update_of_ne same]
  | handOff l v ts pc found => exact .inl (handOff_ap cfg s l v ts i).2.1
  | wakeup l v pc _ =>
      by_cases same : i = l.cpu
      · simp [Sys.setAp, same]
      · simp [Sys.setAp, Function.update_of_ne same]
  | switchIn curTid cbsNew pc => exact .inl (by rw [switchIn_ap])
  | _ => exact .inl rfl

theorem BspStep.value (locks : Locks s) (h : BspStep cfg s t) (i : Nat) :
    t.value i = s.value i ∨ BspMove i s.bsp (s.value i) (t.value i) := by
  have ap : ∀ v w, (s.ap i).pc.held = some v → (t.ap i).pc.held = some w → w = v := by
    intro v w hv hw
    obtain same | ⟨off, boot⟩ := h.pc i
    · rw [same, hv] at hw
      exact (Option.some.inj hw).symm
    · rw [off] at hv
      rw [boot] at hw
      cases hv
      cases hw
      rfl
  have kept : (∀ v w, s.bsp.held i = some v → t.bsp.held i = some w → w = v) →
      t.value i = s.value i := locks.value_kept (h.word i) ap
  obtain none | none | same | ⟨cpu, v, w, before, after, move⟩ := h.lock_cases
  · exact .inl (kept fun v w hv => by cases (Bsp.held_of_none none i).symm.trans hv)
  · exact .inl (kept fun v w _ hw => by cases (Bsp.held_of_none none i).symm.trans hw)
  · exact .inl (kept fun v w hv hw => by
      rw [Bsp.held_congr same, hv] at hw
      exact (Option.some.inj hw).symm)
  · by_cases same : i = cpu
    · subst same
      have locks' : Locks t := fun j => (locks j).step (h.word j)
      rw [locks.value_of_bsp (Bsp.held_of_lock before), locks'.value_of_bsp (Bsp.held_of_lock after)]
      exact .inr move
    · exact .inl (kept fun v w hv => by cases (Bsp.held_ne_of_lock before same).symm.trans hv)

theorem BspMove.lock {b : Bsp} (h : BspMove i b v w) : b.lock = some (i, v) := by
  cases h with
  | handOff l v cpu => exact cpu ▸ rfl
  | takeBack l cpu => exact cpu ▸ rfl
  | discard tid v => rfl

/-- The BSP moves no value but that of the word it holds. -/
theorem BspStep.value_ne (locks : Locks s) (h : BspStep cfg s t) (held : s.bsp.lock = some (j, v))
    (ne : i ≠ j) : t.value i = s.value i := by
  refine (h.value locks i).resolve_right fun move => ne ?_
  exact congrArg Prod.fst (Option.some.inj (move.lock.symm.trans held))

/-- The statements of the BSP that move a value. -/
def Bsp.moves : Bsp → Bool
  | .apStore _ _ | .bspTest _ .cargo | .destroyDiscard _ _ _ => true
  | _ => false

theorem BspMove.moves {b : Bsp} (h : BspMove i b v w) : b.moves = true := by
  cases h <;> rfl

theorem BspGoto.moves {b c : Bsp} (h : BspGoto cfg s b c) : b.moves = false := by
  cases h with
  | notCargo l v other => cases v <;> first | rfl | exact absurd rfl other
  | _ => rfl

theorem LockAt.moves {b : Bsp} {cpu : Nat} {next : Status → Bsp} (h : LockAt b cpu next) :
    b.moves = false := by
  cases h <;> rfl

theorem UnlockAt.moves {b c : Bsp} {cpu : Nat} (h : UnlockAt b cpu v c) : b.moves = false := by
  cases h <;> rfl

theorem BspStep.value_same (locks : Locks s) (h : BspStep cfg s t) (still : s.bsp.moves = false)
    (i : Nat) : t.value i = s.value i :=
  (h.value locks i).resolve_right fun move => by cases still.symm.trans move.moves

theorem NmiStep.value (h : NmiStep j s t) (i : Nat) : t.value i = s.value i := by
  by_cases same : i = j
  · subst same
    cases h with
    | wake _ halted => exact value_congr (by simp) (by simp [halted, ApPc.held]) rfl
    | dummy _ _ => exact value_congr (by simp) (by simp) rfl
  · exact h.frame.value same

theorem trap_frame (cfg : Config) (s : Sys) (j : Nat) (trap : Trap) (u : UserRegs) (x : ExtState) :
    ApFrame j s (s.setAp j ((s.ap j).switchBack cfg trap u (trapSp cfg j) x)) :=
  .setAp rfl rfl

theorem trap_value (cfg : Config) {tid : Dword} (pc : (s.ap j).pc = .ring3 tid) (trap : Trap) (u : UserRegs)
    (x : ExtState) (i : Nat) :
    (s.setAp j ((s.ap j).switchBack cfg trap u (trapSp cfg j) x)).value i = s.value i := by
  by_cases same : i = j
  · subst same
    exact value_congr (by simp [Ap.switchBack]) (by simp [Ap.switchBack, pc, ApPc.held]) rfl
  · exact (trap_frame cfg s j trap u x).value same

theorem CallStep.ap {op : BspOp} (h : CallStep cfg s op t) : t.ap = s.ap := by
  cases h <;> rfl

theorem CallStep.lock {op : BspOp} (idle : s.bsp = .idle) (h : CallStep cfg s op t) :
    t.bsp.lock = none := by
  cases h with
  | create tid page => exact congrArg Bsp.lock idle
  | elevate proc lockaddr mode => exact congrArg Bsp.lock idle
  | enter op b ht entry same => exact entry.lock

theorem CallStep.value {op : BspOp} (idle : s.bsp = .idle) (h : CallStep cfg s op t) (i : Nat) :
    t.value i = s.value i :=
  value_congr (by rw [h.ap]) (by rw [h.ap]) (Bsp.held_congr (by rw [h.lock idle, idle]; rfl) i)

end SmpVxd
