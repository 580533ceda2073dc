import Mathlib.Data.List.Basic

/-!
# A state word that is its own lock

One value of the word, `busy`, means that some agent has taken the word. An
agent takes it by exchanging it with `busy`; when the exchange returns any other
value `v`, the agent holds `v` as a local copy, may replace the copy, and gives
the word back by writing the copy. An exchange that returns `busy` changes
nothing and is repeated by the agent.

`Exclusive` is the invariant of this discipline: at most one agent holds a copy
and the word is `busy` exactly while one does. `History` describes the events
seen on the word: takes and writes alternate, each take returns the value of the
write before it, and each write is a legal successor of the value taken.
-/

namespace Transition.WordLock

variable {A V : Type*}

/-- The two observable events on the word. -/
inductive Event (V : Type*) where
  | take (v : V)
  | write (v : V)
  deriving DecidableEq, Repr

/-- The word and the local copies of the agents. -/
structure State (A V : Type*) where
  word : V
  held : A → Option V

/-- One step on the word. Steps of the agents that touch neither the word nor a
copy, a failed exchange among them, are `stay`. -/
inductive Step (busy : V) (s t : State A V) : Option (Event V) → Prop where
  | stay : t.word = s.word → (∀ a, t.held a = s.held a) → Step busy s t none
  | take (a) : s.word ≠ busy → s.held a = none → t.word = busy → t.held a = some s.word →
      (∀ b, b ≠ a → t.held b = s.held b) → Step busy s t (some (.take s.word))
  | move (a v w) : s.held a = some v → w ≠ busy → t.word = s.word → t.held a = some w →
      (∀ b, b ≠ a → t.held b = s.held b) → Step busy s t none
  | write (a v) : s.held a = some v → t.word = v → t.held a = none →
      (∀ b, b ≠ a → t.held b = s.held b) → Step busy s t (some (.write v))

/-- The word is taken and nobody is left to give it back. -/
def Orphaned (busy : V) (s : State A V) : Prop := s.word = busy ∧ ∀ a, s.held a = none

/-- An orphaned word can never be taken again. -/
theorem Orphaned.step {busy : V} {s t : State A V} {e : Option (Event V)}
    (h : Orphaned busy s) (step : Step busy s t e) : Orphaned busy t := by
  obtain ⟨word, free⟩ := h
  cases step with
  | stay same held => exact ⟨same.trans word, fun a => (held a).trans (free a)⟩
  | take a ne _ _ _ _ => exact absurd word ne
  | move a v w held _ _ _ _ => cases (free a).symm.trans held
  | write a v held _ _ _ => cases (free a).symm.trans held

/-- Mutual exclusion, and the word as the lock bit. -/
structure Exclusive (busy : V) (s : State A V) : Prop where
  unique : ∀ {a b v w}, s.held a = some v → s.held b = some w → a = b
  busy_of_held : ∀ {a v}, s.held a = some v → s.word = busy
  held_of_busy : s.word = busy → ∃ a v, s.held a = some v
  held_ne : ∀ {a v}, s.held a = some v → v ≠ busy

namespace Exclusive

variable {busy : V} {s t : State A V} {e : Option (Event V)}

theorem busy_iff (h : Exclusive busy s) : s.word = busy ↔ ∃ a v, s.held a = some v :=
  ⟨h.held_of_busy, by rintro ⟨_, _, held⟩; exact h.busy_of_held held⟩

theorem none_of_ne (h : Exclusive busy s) (free : s.word ≠ busy) (a : A) : s.held a = none := by
  cases held : s.held a with
  | none => rfl
  | some v => exact absurd (h.busy_of_held held) free

/-- While one agent holds the word, nobody else does. -/
theorem others (h : Exclusive busy s) {a b : A} {v : V} (held : s.held a = some v)
    (ne : b ≠ a) : s.held b = none := by
  cases other : s.held b with
  | none => rfl
  | some w => exact absurd (h.unique other held) ne

/-- Every step keeps the invariant. The word is taken only when it is free, so
no second holder can appear, and only the holder writes. -/
theorem step (h : Exclusive busy s) (step : Step busy s t e) : Exclusive busy t := by
  classical
  cases step with
  | stay word held =>
      refine ⟨?_, ?_, ?_, ?_⟩
      · intro a b v w ha hb
        rw [held] at ha hb
        exact h.unique ha hb
      · intro a v ha
        rw [held] at ha
        rw [word]
        exact h.busy_of_held ha
      · intro hb
        obtain ⟨a, v, ha⟩ := h.held_of_busy (word ▸ hb)
        exact ⟨a, v, by rw [held, ha]⟩
      · intro a v ha
        rw [held] at ha
        exact h.held_ne ha
  | take a free none word self others =>
      have only : ∀ {b v}, t.held b = some v → b = a := by
        intro b v hb
        by_contra ne
        rw [others b ne, h.none_of_ne free b] at hb
        cases hb
      refine ⟨fun ha hb => (only ha).trans (only hb).symm, fun _ => word,
        fun _ => ⟨a, _, self⟩, ?_⟩
      intro b v hb
      obtain rfl := only hb
      rw [self] at hb
      cases hb
      exact free
  | move a v w holds ne word self others =>
      have only : ∀ {b v}, t.held b = some v → b = a := by
        intro b v hb
        by_contra ne
        rw [others b ne, h.others holds ne] at hb
        cases hb
      refine ⟨fun ha hb => (only ha).trans (only hb).symm,
        fun _ => word.trans (h.busy_of_held holds), fun _ => ⟨a, _, self⟩, ?_⟩
      intro b v hb
      obtain rfl := only hb
      rw [self] at hb
      cases hb
      exact ne
  | write a v holds word self others =>
      have nobody : ∀ b, t.held b = none := by
        intro b
        by_cases ne : b = a
        · rw [ne, self]
        · rw [others b ne, h.others holds ne]
      refine ⟨fun ha => ?_, fun ha => ?_, fun hb => ?_, fun ha => ?_⟩
      · rw [nobody] at ha
        cases ha
      · rw [nobody] at ha
        cases ha
      · exact absurd (word.symm.trans hb) (h.held_ne holds)
      · rw [nobody] at ha
        cases ha

end Exclusive

/-- The value that is passed on: the copy of the holder, or else the word. -/
def State.Carries (s : State A V) (v : V) : Prop :=
  (∃ a, s.held a = some v) ∨ (∀ a, s.held a = none) ∧ s.word = v

namespace Exclusive

variable {busy : V} {s t : State A V} {e : Option (Event V)} {v w : V}

theorem carries_unique (h : Exclusive busy s) (first : s.Carries v) (second : s.Carries w) :
    v = w := by
  obtain ⟨a, ha⟩ | ⟨free, word⟩ := first
  · obtain ⟨b, hb⟩ | ⟨free, _⟩ := second
    · obtain rfl := h.unique ha hb
      exact Option.some.inj (ha.symm.trans hb)
    · cases (free a).symm.trans ha
  · obtain ⟨b, hb⟩ | ⟨_, word'⟩ := second
    · cases (free b).symm.trans hb
    · exact word.symm.trans word'

/-- Only a holder that replaces its copy changes the value that is passed on. -/
theorem carries_step (h : Exclusive busy s) (step : Step busy s t e)
    (kept : ∀ a v w, s.held a = some v → t.held a = some w → w = v)
    (carries : s.Carries v) : t.Carries v := by
  classical
  cases step with
  | stay word held =>
      obtain ⟨a, ha⟩ | ⟨free, same⟩ := carries
      · exact .inl ⟨a, (held a).trans ha⟩
      · exact .inr ⟨fun a => (held a).trans (free a), word.trans same⟩
  | take a free none word self others =>
      obtain ⟨b, hb⟩ | ⟨_, rfl⟩ := carries
      · cases (h.none_of_ne free b).symm.trans hb
      · exact .inl ⟨a, self⟩
  | move a v' w holds ne word self others =>
      obtain rfl := h.carries_unique carries (.inl ⟨a, holds⟩)
      obtain rfl := kept a _ _ holds self
      exact .inl ⟨a, self⟩
  | write a w holds word self others =>
      obtain rfl := h.carries_unique carries (.inl ⟨a, holds⟩)
      refine .inr ⟨fun b => ?_, word⟩
      by_cases same : b = a
      · rw [same, self]
      · rw [others b same, h.others holds same]

end Exclusive

/-- The events of a word that is opened by a first write, newest first. -/
inductive History (Legal : V → V → Prop) : List (Event V) → Prop where
  | first (v) : History Legal [.write v]
  | take {v h} : History Legal (.write v :: h) → History Legal (.take v :: .write v :: h)
  | write {v w h} : History Legal (.take v :: h) → Legal v w →
      History Legal (.write w :: .take v :: h)

/-- The values the successful exchanges returned, newest first. -/
def taken (h : List (Event V)) : List V :=
  h.filterMap fun | .take v => some v | .write _ => none

/-- The values written, newest first. -/
def written (h : List (Event V)) : List V :=
  h.filterMap fun | .take _ => none | .write v => some v

@[simp] theorem taken_take (v : V) (h : List (Event V)) :
    taken (.take v :: h) = v :: taken h := rfl

@[simp] theorem taken_write (v : V) (h : List (Event V)) :
    taken (.write v :: h) = taken h := rfl

@[simp] theorem written_take (v : V) (h : List (Event V)) :
    written (.take v :: h) = written h := rfl

@[simp] theorem written_write (v : V) (h : List (Event V)) :
    written (.write v :: h) = v :: written h := rfl

/-- The completed exchanges, newest first: the value taken and the value that
the same holder wrote back. -/
def exchanges : List (Event V) → List (V × V)
  | .write w :: .take v :: h => (v, w) :: exchanges h
  | .take _ :: h => exchanges h
  | _ => []

namespace History

variable {Legal : V → V → Prop} {h : List (Event V)}

/-- No value is lost or seen twice: what was taken is what was written, and the
newest write is still in the word when nobody holds it. -/
theorem sequences (history : History Legal h) :
    (∀ v g, h = .take v :: g → taken h = written h) ∧
      (∀ v g, h = .write v :: g → written h = v :: taken h) := by
  induction history with
  | first v => simp [taken, written]
  | take _ ih => simpa using (ih.2 _ _ rfl).symm
  | write _ _ ih => simpa using (ih.1 _ _ rfl).symm

theorem taken_eq_written {v : V} (history : History Legal (.take v :: h)) :
    taken (.take v :: h) = written (.take v :: h) := history.sequences.1 _ _ rfl

theorem written_eq_cons {v : V} (history : History Legal (.write v :: h)) :
    written (.write v :: h) = v :: taken (.write v :: h) := history.sequences.2 _ _ rfl

/-- Every value written back is a legal successor of the value its writer took. -/
theorem legal (history : History Legal h) :
    ∀ exchange ∈ exchanges h, Legal exchange.1 exchange.2 := by
  induction history with
  | first v => simp [exchanges]
  | take _ ih => simpa [exchanges] using ih
  | write _ step ih =>
      intro exchange member
      simp only [exchanges, List.mem_cons] at member
      obtain rfl | member := member
      · exact step
      · exact ih exchange (by simpa only [exchanges] using member)

end History

/-- The history of a word that has been opened fits its state. A holder is fresh as
long as its copy is the value it took; it replaces the copy at most once. -/
structure Logged (Legal : V → V → Prop) (fresh : A → Prop) (s : State A V)
    (h : List (Event V)) : Prop where
  history : History Legal h
  released : (∀ a, s.held a = none) → ∃ g, h = .write s.word :: g
  holding : ∀ a w, s.held a = some w → ∃ v g, h = .take v :: g ∧ Legal v w ∧ (fresh a → v = w)

theorem Logged.step {busy : V} {Legal : V → V → Prop} {fresh fresh' : A → Prop} {s t : State A V}
    {e : Option (Event V)} {h : List (Event V)} (logged : Logged Legal fresh s h)
    (refl : ∀ v, Legal v v) (exclusive : Exclusive busy s) (step : Step busy s t e)
    (kept : ∀ a v w, s.held a = some v → t.held a = some w →
      v = w ∧ (fresh' a → fresh a) ∨ fresh a ∧ Legal v w ∧ ¬fresh' a) :
    Logged Legal fresh' t (e.toList ++ h) := by
  have exclusive' := exclusive.step step
  cases step with
  | stay word held =>
      refine ⟨logged.history, fun free => ?_, fun a w holds => ?_⟩
      · rw [word]
        exact logged.released fun a => (held a).symm.trans (free a)
      · have before := (held a).symm.trans holds
        obtain ⟨v, g, rfl, legal, same⟩ := logged.holding a w before
        refine ⟨v, g, rfl, legal, fun isFresh => ?_⟩
        obtain ⟨_, old⟩ | ⟨_, _, stale⟩ := kept a w w before holds
        · exact same (old isFresh)
        · exact absurd isFresh stale
  | take a free none word self others =>
      obtain ⟨g, rfl⟩ := logged.released (exclusive.none_of_ne free)
      refine ⟨.take logged.history, fun released => ?_, fun b w holds => ?_⟩
      · cases (released a).symm.trans self
      · obtain rfl := exclusive'.unique holds self
        cases holds.symm.trans self
        exact ⟨_, _, rfl, refl _, fun _ => rfl⟩
  | move a v w holds ne word self others =>
      obtain ⟨u, g, rfl, legal, same⟩ := logged.holding a v holds
      refine ⟨logged.history, fun released => ?_, fun b x holdsNow => ?_⟩
      · cases (released a).symm.trans self
      · obtain rfl := exclusive'.unique holdsNow self
        cases holdsNow.symm.trans self
        obtain ⟨rfl, old⟩ | ⟨isFresh, step, stale⟩ := kept b v w holds self
        · exact ⟨u, g, rfl, legal, fun isFresh => same (old isFresh)⟩
        · obtain rfl := same isFresh
          exact ⟨u, g, rfl, step, fun isFresh => absurd isFresh stale⟩
  | write a v holds word self others =>
      obtain ⟨u, g, rfl, legal, _⟩ := logged.holding a v holds
      refine ⟨.write logged.history legal, fun _ => ⟨_, by rw [word]; rfl⟩, fun b w holdsNow => ?_⟩
      by_cases same : b = a
      · rw [same, self] at holdsNow
        cases holdsNow
      · rw [others b same, exclusive.others holds same] at holdsNow
        cases holdsNow

/-- The first write opens the word. -/
theorem Logged.first {Legal : V → V → Prop} {fresh : A → Prop} {s : State A V}
    (free : ∀ a, s.held a = none) : Logged Legal fresh s [.write s.word] where
  history := .first _
  released _ := ⟨[], rfl⟩
  holding a w holds := by cases (free a).symm.trans holds

end Transition.WordLock
