import Mathlib.Logic.Basic

/-!
# Guests on hosts

Hosts take guests over from a home table and give them back. The bookkeeping is
redundant: a host knows its guest, and the table says for every guest whether it
is at home or on which host. `Coherent` states that both sides agree; it is kept
by every step, so no guest is on two hosts and no host has two guests.

A guest that is deleted while it is on a host leaves a host that discards what
it holds; such a host becomes free again by itself.
-/

namespace Transition.Hosting

variable {H T R : Type*}

inductive Phase where
  | free
  | hosting
  | discarding
  deriving DecidableEq, Repr

/-- A guest is named by a `T` and recorded in the table under a record `R`. The
table has no entry for an unknown guest, `none` for one that is at home. -/
structure State (H T R : Type*) where
  phase : H → Phase
  guest : H → T × R
  home : T → Option (R × Option H)

/-- One step of the bookkeeping; every step says what else is unchanged. -/
inductive Step (s t : State H T R) : Prop where
  | stay : (∀ h, t.phase h = s.phase h) → (∀ h, t.guest h = s.guest h) →
      (∀ g, t.home g = s.home g) → Step s t
  | create (g r) : s.home g = none → t.home g = some (r, none) →
      (∀ g', g' ≠ g → t.home g' = s.home g') →
      (∀ h, t.phase h = s.phase h) → (∀ h, t.guest h = s.guest h) → Step s t
  | forget (g) : (∀ r h, s.home g ≠ some (r, some h)) → t.home g = none →
      (∀ g', g' ≠ g → t.home g' = s.home g') →
      (∀ h, t.phase h = s.phase h) → (∀ h, t.guest h = s.guest h) → Step s t
  | handOff (g r h) : s.home g = some (r, none) → s.phase h = .free →
      t.home g = some (r, some h) → t.phase h = .hosting → t.guest h = (g, r) →
      (∀ g', g' ≠ g → t.home g' = s.home g') →
      (∀ h', h' ≠ h → t.phase h' = s.phase h' ∧ t.guest h' = s.guest h') → Step s t
  | takeBack (g r h) : s.home g = some (r, some h) → t.home g = some (r, none) →
      t.phase h = .free → (∀ g', g' ≠ g → t.home g' = s.home g') →
      (∀ h', h' ≠ h → t.phase h' = s.phase h' ∧ t.guest h' = s.guest h') → Step s t
  | discard (g r h) : s.home g = some (r, some h) → t.home g = none →
      t.phase h = .discarding → (∀ g', g' ≠ g → t.home g' = s.home g') →
      (∀ h', h' ≠ h → t.phase h' = s.phase h' ∧ t.guest h' = s.guest h') → Step s t
  | recycle (h) : s.phase h = .discarding → t.phase h = .free →
      (∀ g, t.home g = s.home g) →
      (∀ h', h' ≠ h → t.phase h' = s.phase h' ∧ t.guest h' = s.guest h') → Step s t

/-- Both sides of the bookkeeping agree. -/
structure Coherent (s : State H T R) : Prop where
  home_of_hosting : ∀ {h}, s.phase h = .hosting → s.home (s.guest h).1 = some ((s.guest h).2, some h)
  hosting_of_home : ∀ {g r h}, s.home g = some (r, some h) →
    s.phase h = .hosting ∧ s.guest h = (g, r)

namespace Coherent

variable {s t : State H T R}

/-- No host has two guests. -/
theorem guest_unique (c : Coherent s) {g g' : T} {r r' : R} {h : H}
    (first : s.home g = some (r, some h)) (second : s.home g' = some (r', some h)) : g = g' :=
  congrArg Prod.fst ((c.hosting_of_home first).2.symm.trans (c.hosting_of_home second).2)

/-- No guest is on two hosts. -/
theorem host_unique (c : Coherent s) {h h' : H} (first : s.phase h = .hosting)
    (second : s.phase h' = .hosting) (same : (s.guest h).1 = (s.guest h').1) : h = h' := by
  have home := c.home_of_hosting first
  rw [same, c.home_of_hosting second] at home
  simpa using congrArg (fun entry => entry.bind Prod.snd) home.symm

/-- A table entry never names a host that is not hosting. -/
private theorem other_host (c : Coherent s) {g : T} {r : R} {h h' : H}
    (entry : s.home g = some (r, some h)) (ne : s.phase h' ≠ .hosting) : h ≠ h' := by
  rintro rfl
  exact ne (c.hosting_of_home entry).1

/-- An entry that names no host, neither before nor after, concerns no host. -/
private theorem resident (c : Coherent s) {g : T} (before : ∀ r h, s.home g ≠ some (r, some h))
    (after : ∀ r h, t.home g ≠ some (r, some h)) (others : ∀ g', g' ≠ g → t.home g' = s.home g')
    (phase : ∀ h, t.phase h = s.phase h) (guest : ∀ h, t.guest h = s.guest h) : Coherent t := by
  refine ⟨fun {h} hosting => ?_, fun {g' r h} entry => ?_⟩
  · have old := c.home_of_hosting (phase h ▸ hosting)
    have ne : (s.guest h).1 ≠ g := fun same => before _ _ (same ▸ old)
    rw [guest, others _ ne, old]
  · have ne : g' ≠ g := fun same => after _ _ (same ▸ entry)
    rw [others _ ne] at entry
    rw [phase, guest]
    exact c.hosting_of_home entry

/-- A host that stops hosting together with the entry that named it. -/
private theorem leave (c : Coherent s) {g : T} {r : R} {h : H}
    (onHost : s.home g = some (r, some h)) (gone : ∀ r h, t.home g ≠ some (r, some h))
    (phase : t.phase h ≠ .hosting) (others : ∀ g', g' ≠ g → t.home g' = s.home g')
    (rest : ∀ h', h' ≠ h → t.phase h' = s.phase h' ∧ t.guest h' = s.guest h') : Coherent t := by
  refine ⟨fun {h'} hosting => ?_, fun {g' r' h'} entry => ?_⟩
  · have ne : h' ≠ h := fun same => phase (same ▸ hosting)
    rw [(rest h' ne).1] at hosting
    have old := c.home_of_hosting hosting
    have guests : (s.guest h').1 ≠ g := by
      intro same
      rw [same, onHost] at old
      cases old
      exact ne rfl
    rw [(rest h' ne).2, others _ guests, old]
  · have different : g' ≠ g := fun same => gone _ _ (same ▸ entry)
    rw [others _ different] at entry
    have ne : h' ≠ h := by
      rintro rfl
      exact different (c.guest_unique entry onHost)
    rw [(rest h' ne).1, (rest h' ne).2]
    exact c.hosting_of_home entry

/-- Every step keeps both sides in agreement. -/
theorem step (c : Coherent s) (step : Step s t) : Coherent t := by
  cases step with
  | stay phase guest home =>
      refine ⟨fun hosting => ?_, fun entry => ?_⟩
      · rw [home, guest]
        exact c.home_of_hosting (phase _ ▸ hosting)
      · rw [home] at entry
        rw [phase, guest]
        exact c.hosting_of_home entry
  | create g r absent present others phase guest =>
      exact c.resident (by simp [absent]) (by simp [present]) others phase guest
  | forget g free absent others phase guest =>
      exact c.resident free (by simp [absent]) others phase guest
  | handOff g r h atHome free home phase guest others rest =>
      refine ⟨fun {h'} hosting => ?_, fun {g' r' h'} entry => ?_⟩
      · by_cases same : h' = h
        · rw [same, guest, home]
        · rw [(rest h' same).1] at hosting
          have old := c.home_of_hosting hosting
          have ne : (s.guest h').1 ≠ g := by
            intro eq
            rw [eq, atHome] at old
            cases old
          rw [(rest h' same).2, others _ ne, old]
      · by_cases same : g' = g
        · rw [same, home] at entry
          cases entry
          exact ⟨phase, by rw [guest, same]⟩
        · rw [others _ same] at entry
          have ne : h' ≠ h := c.other_host entry (by rw [free]; decide)
          rw [(rest h' ne).1, (rest h' ne).2]
          exact c.hosting_of_home entry
  | takeBack g r h onHost home phase others rest =>
      exact c.leave onHost (by simp [home]) (by simp [phase]) others rest
  | discard g r h onHost home phase others rest =>
      exact c.leave onHost (by simp [home]) (by simp [phase]) others rest
  | recycle h discarding phase home rest =>
      refine ⟨fun {h'} hosting => ?_, fun {g r h'} entry => ?_⟩
      · have ne : h' ≠ h := by
          rintro rfl
          rw [phase] at hosting
          cases hosting
        rw [(rest h' ne).1] at hosting
        rw [(rest h' ne).2, home]
        exact c.home_of_hosting hosting
      · rw [home] at entry
        have ne : h' ≠ h := c.other_host entry (by rw [discarding]; decide)
        rw [(rest h' ne).1, (rest h' ne).2]
        exact c.hosting_of_home entry

end Coherent

end Transition.Hosting
