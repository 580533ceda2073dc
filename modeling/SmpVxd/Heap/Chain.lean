import Mathlib.Data.List.Induction
import Mathlib.Data.List.Nodup
import Mathlib.Logic.Function.Basic

/-!
# Chains of cells

A store has cells at addresses, each with a key and the address of the next cell, and
heads from which chains start. `Represents` says that the chains of a store are given
lists of entries that share no cell. A program changes a chain at a link, that is at a
head or at the next field of a cell; `splice` says what the chains are afterwards.
-/

namespace Heap

universe u v w

variable {ι : Type u} {π : Type v} {κ : Type w}

structure Cell (π : Type v) (κ : Type w) where
  key : κ
  next : Option π
  deriving DecidableEq

/-- A place that holds the address of a cell. -/
inductive Link (ι : Type u) (π : Type v) where
  | head (i : ι)
  | next (p : π)
  deriving DecidableEq

structure Store (ι : Type u) (π : Type v) (κ : Type w) where
  head : ι → Option π
  cell : π → Option (Cell π κ)

namespace Store

/-- No cells. -/
def empty : Store ι π κ := ⟨fun _ => none, fun _ => none⟩

/-- The address at a link; `none` in a cell that is not allocated. -/
def read (s : Store ι π κ) : Link ι π → Option (Option π)
  | .head i => some (s.head i)
  | .next p => (s.cell p).map (·.next)

/-- The cells that the pointers lead to from a head. -/
inductive Reach (s : Store ι π κ) (i : ι) : π → Prop where
  | first {p} : s.head i = some p → Reach s i p
  | next {p q c} : Reach s i p → s.cell p = some c → c.next = some q → Reach s i q

variable [DecidableEq π]

def setCell (s : Store ι π κ) (p : π) (c : Option (Cell π κ)) : Store ι π κ :=
  { s with cell := Function.update s.cell p c }

@[simp] theorem setCell_setCell (s : Store ι π κ) (p : π) (c d : Option (Cell π κ)) : (s.setCell p c).setCell p d = s.setCell p d := by
  simp [setCell]

theorem setCell_of_eq {s : Store ι π κ} {p : π} {c : Option (Cell π κ)} (same : s.cell p = c) : s.setCell p c = s := by
  rw [setCell, ← same, Function.update_eq_self]

theorem setCell_cell_of_ne {s : Store ι π κ} {p q : π} (ne : q ≠ p) (c : Option (Cell π κ)) : (s.setCell p c).cell q = s.cell q :=
  Function.update_of_ne ne ..

def write [DecidableEq ι] (s : Store ι π κ) : Link ι π → Option π → Store ι π κ
  | .head i, q => { s with head := Function.update s.head i q }
  | .next p, q => s.setCell p ((s.cell p).map fun c => { c with next := q })

variable [DecidableEq ι] {s : Store ι π κ} {l : Link ι π} {p : π} {r : Option π} {c : Cell π κ}

/-- Links do not concern keys. -/
theorem write_key (found : s.cell p = some c) : ∃ d, (s.write l r).cell p = some d ∧ d.key = c.key := by
  cases l with
  | head i => exact ⟨c, found, rfl⟩
  | next q =>
      by_cases same : p = q
      · subst same
        exact ⟨{ c with next := r }, by simp [write, setCell, found], rfl⟩
      · exact ⟨c, by simpa [write, setCell, Function.update_of_ne same] using found, rfl⟩

/-- Nor is a cell allocated or freed by storing to a link. -/
theorem write_cell_eq_none : (s.write l r).cell p = none ↔ s.cell p = none := by
  cases l with
  | head i => exact Iff.rfl
  | next q =>
      by_cases same : p = q
      · subst same
        simp [write, setCell]
      · simp [write, setCell, Function.update_of_ne same]

theorem write_cell_of_ne (ne : l ≠ .next p) : (s.write l r).cell p = s.cell p := by
  cases l with
  | head i => rfl
  | next q =>
      refine Function.update_of_ne ?_ ..
      rintro rfl
      exact ne rfl

end Store

/-- From an address on, the cells hold the entries in order. -/
def Linked (cell : π → Option (Cell π κ)) : Option π → List (π × κ) → Prop
  | p, [] => p = none
  | p, (q, k) :: rest => p = some q ∧ ∃ next, cell q = some ⟨k, next⟩ ∧ Linked cell next rest

/-- The address of the first entry. -/
def first (entries : List (π × κ)) : Option π := entries.head?.map Prod.fst

/-- The link behind a prefix of a chain. -/
def linkAfter (i : ι) (before : List (π × κ)) : Link ι π :=
  match before.getLast? with
  | none => .head i
  | some e => .next e.1

@[simp] theorem linkAfter_append_singleton (i : ι) (before : List (π × κ)) (e : π × κ) :
    linkAfter i (before ++ [e]) = .next e.1 := by
  simp [linkAfter]

theorem linkAfter_ne {i : ι} {before : List (π × κ)} {p : π} (outside : p ∉ before.map Prod.fst) :
    linkAfter i before ≠ .next p := by
  obtain rfl | ⟨front, e, rfl⟩ := before.eq_nil_or_concat
  · intro same
    cases same
  · intro same
    simp only [linkAfter, List.concat_eq_append, List.getLast?_append, List.getLast?_singleton,
      Option.some_or, Link.next.injEq] at same
    subst same
    simp at outside

section Linked

variable {cell cell' : π → Option (Cell π κ)} {p : Option π} {entries before after : List (π × κ)}

theorem Linked.first_eq (h : Linked cell p entries) : p = first entries := by
  cases entries with
  | nil => exact h
  | cons e rest => exact h.1

/-- Cells that are not in the chain do not matter. -/
theorem Linked.congr (h : Linked cell p entries)
    (same : ∀ q, q ∈ entries.map Prod.fst → cell' q = cell q) : Linked cell' p entries := by
  induction entries generalizing p with
  | nil => exact h
  | cons e rest ih =>
      obtain ⟨here, next, found, linked⟩ := h
      refine ⟨here, next, ?_, ih linked fun q member => same q (List.mem_cons_of_mem _ member)⟩
      rw [same e.1 List.mem_cons_self, found]

theorem Linked.suffix (h : Linked cell p (before ++ after)) : Linked cell (first after) after := by
  induction before generalizing p with
  | nil => exact h.first_eq ▸ h
  | cons e rest ih =>
      obtain ⟨-, next, -, linked⟩ := h
      exact ih linked

/-- The cell of an entry leads to the entry behind it. -/
theorem Linked.cell_eq {q : π} {k : κ} (h : Linked cell p (before ++ (q, k) :: after)) :
    cell q = some ⟨k, first after⟩ := by
  obtain ⟨-, next, found, linked⟩ := h.suffix
  rw [found, linked.first_eq]

/-- The part behind a cell is replaced by storing another address in the cell. -/
theorem Linked.splice [DecidableEq π] {q : π} {k : κ} {tail : List (π × κ)} {r : Option π}
    (h : Linked cell p (before ++ (q, k) :: after))
    (new : Linked cell r tail) (outside : q ∉ (before ++ tail).map Prod.fst) :
    Linked (Function.update cell q (some ⟨k, r⟩)) p (before ++ (q, k) :: tail) := by
  have same : ∀ x, x ∈ (before ++ tail).map Prod.fst →
      Function.update cell q (some ⟨k, r⟩) x = cell x := by
    intro x member
    refine Function.update_of_ne ?_ ..
    rintro rfl
    exact outside member
  induction before generalizing p with
  | nil =>
      obtain ⟨here, -, -, -⟩ := h
      exact ⟨here, r, Function.update_self .., new.congr same⟩
  | cons e rest ih =>
      obtain ⟨here, next, found, linked⟩ := h
      have apart := mt (List.mem_cons_of_mem e.1) outside
      refine ⟨here, next, ?_, ih linked apart fun x member => same x (List.mem_cons_of_mem _ member)⟩
      rw [same e.1 List.mem_cons_self, found]

end Linked

/-- The chains of the store are the given lists, and no two entries share a cell. -/
structure Represents (s : Store ι π κ) (chain : ι → List (π × κ)) : Prop where
  linked : ∀ i, Linked s.cell (s.head i) (chain i)
  nodup : ∀ i, ((chain i).map Prod.fst).Nodup
  apart : ∀ i j p, p ∈ (chain i).map Prod.fst → p ∈ (chain j).map Prod.fst → i = j

/-- A cell that no chain uses. -/
def Unused (chain : ι → List (π × κ)) (p : π) : Prop := ∀ i, p ∉ (chain i).map Prod.fst

/-- Every cell that is allocated is in a chain. -/
def Covers (chain : ι → List (π × κ)) (s : Store ι π κ) : Prop :=
  ∀ p, s.cell p ≠ none → ∃ i, p ∈ (chain i).map Prod.fst

theorem represents_empty : Represents (Store.empty : Store ι π κ) fun _ => [] :=
  ⟨fun _ => rfl, fun _ => .nil, fun _ _ _ member => absurd member List.not_mem_nil⟩

namespace Represents

variable {s : Store ι π κ} {chain : ι → List (π × κ)} {i : ι} {before after tail : List (π × κ)}
variable {p : π} {k : κ} {r : Option π}

theorem head_eq (h : Represents s chain) (i : ι) : s.head i = first (chain i) := (h.linked i).first_eq

theorem cell_eq (h : Represents s chain) (split : chain i = before ++ (p, k) :: after) :
    s.cell p = some ⟨k, first after⟩ :=
  (split ▸ h.linked i).cell_eq

/-- A cell that is not allocated is in no chain. -/
theorem unused_of_none (h : Represents s chain) (free : s.cell p = none) : Unused chain p := by
  intro i member
  obtain ⟨⟨q, k⟩, inside, rfl⟩ := List.mem_map.mp member
  obtain ⟨before, after, split⟩ := List.append_of_mem inside
  rw [h.cell_eq split] at free
  cases free

/-- What can be reached from a head is its chain. -/
theorem reach_iff (h : Represents s chain) : s.Reach i p ↔ p ∈ (chain i).map Prod.fst := by
  constructor
  · intro reach
    induction reach with
    | first here =>
        rw [h.head_eq] at here
        obtain ⟨e, head, rfl⟩ := Option.map_eq_some_iff.mp here
        exact List.mem_map_of_mem (List.mem_of_head? head)
    | next _ found here ih =>
        obtain ⟨⟨q, k⟩, inside, rfl⟩ := List.mem_map.mp ih
        obtain ⟨before, after, split⟩ := List.append_of_mem inside
        rw [h.cell_eq split] at found
        cases found
        obtain ⟨e, head, rfl⟩ := Option.map_eq_some_iff.mp here
        refine List.mem_map_of_mem ?_
        rw [split]
        exact List.mem_append_right _ (List.mem_cons_of_mem _ (List.mem_of_head? head))
  · intro member
    obtain ⟨⟨q, k⟩, inside, rfl⟩ := List.mem_map.mp member
    obtain ⟨before, after, split⟩ := List.append_of_mem inside
    induction before using List.reverseRecOn generalizing q k after with
    | nil => exact .first (by rw [h.head_eq, split]; rfl)
    | append_singleton front e ih =>
        have behind : chain i = front ++ e :: (q, k) :: after := by simpa using split
        have prior : e ∈ chain i := by simp [behind]
        exact .next (ih e.1 e.2 prior (List.mem_map_of_mem prior) _ behind) (h.cell_eq behind) rfl

/-- A cell that is taken out of its chain is in no other. -/
theorem unused_unlink [DecidableEq ι] (h : Represents s chain) (split : chain i = before ++ (p, k) :: after) :
    Unused (Function.update chain i (before ++ after)) p := by
  intro j member
  by_cases same : j = i
  · subst same
    have nodup := h.nodup j
    rw [split, List.map_append, List.map_cons] at nodup
    rw [Function.update_self, List.map_append] at member
    exact (List.nodup_cons.mp (List.nodup_middle.mp nodup)).1 member
  · rw [Function.update_of_ne same] at member
    refine same (h.apart j i p member ?_)
    simp [split]

/-- Reading the link behind a prefix gives the entry behind it. -/
theorem read_linkAfter (h : Represents s chain) (split : chain i = before ++ after) :
    s.read (linkAfter i before) = some (first after) := by
  obtain rfl | ⟨front, e, rfl⟩ := before.eq_nil_or_concat
  · have head := h.head_eq i
    rw [split] at head
    exact congrArg some head
  · have behind : chain i = front ++ (e.1, e.2) :: after := by simpa using split
    simp [linkAfter, Store.read, h.cell_eq behind]

variable [DecidableEq π]

theorem setCell (h : Represents s chain) (unused : Unused chain p) (c : Option (Cell π κ)) :
    Represents (s.setCell p c) chain where
  linked i := (h.linked i).congr fun q member => by
    refine Function.update_of_ne ?_ ..
    rintro rfl
    exact unused i member
  nodup := h.nodup
  apart := h.apart

variable [DecidableEq ι]

/-- Storing an address in the link behind a prefix replaces the rest of the chain. -/
theorem splice (h : Represents s chain) (split : chain i = before ++ after)
    (new : Linked s.cell r tail) (nodup : ((before ++ tail).map Prod.fst).Nodup)
    (others : ∀ j q, q ∈ tail.map Prod.fst → q ∈ (chain j).map Prod.fst → j = i) :
    Represents (s.write (linkAfter i before) r) (Function.update chain i (before ++ tail)) where
  nodup j := by
    by_cases same : j = i
    · subst same
      rwa [Function.update_self]
    · rw [Function.update_of_ne same]
      exact h.nodup j
  apart := by
    have own : ∀ q, q ∈ (before ++ tail).map Prod.fst → ∀ j, q ∈ (chain j).map Prod.fst → j = i := by
      intro q member j member'
      rw [List.map_append, List.mem_append] at member
      obtain front | back := member
      · exact h.apart j i q member' (by rw [split, List.map_append]; exact List.mem_append_left _ front)
      · exact others j q back member'
    intro j j' q member member'
    by_cases same : j = i <;> by_cases same' : j' = i
    · exact same.trans same'.symm
    · subst same
      rw [Function.update_self] at member
      rw [Function.update_of_ne same'] at member'
      exact (own q member j' member').symm
    · subst same'
      rw [Function.update_self] at member'
      rw [Function.update_of_ne same] at member
      exact own q member' j member
    · rw [Function.update_of_ne same] at member
      rw [Function.update_of_ne same'] at member'
      exact h.apart j j' q member member'
  linked := by
    intro j
    obtain rfl | ⟨front, ⟨q, k⟩, rfl⟩ := before.eq_nil_or_concat
    · by_cases same : j = i
      · subst same
        simpa [linkAfter, Store.write] using new
      · simpa [linkAfter, Store.write, Function.update_of_ne same] using h.linked j
    · have chain_eq : chain i = front ++ (q, k) :: after := by simpa using split
      have found := h.cell_eq chain_eq
      have write : s.write (linkAfter i (front.concat (q, k))) r = s.setCell q (some ⟨k, r⟩) := by
        simp [linkAfter, Store.write, found]
      have outside : q ∉ (front ++ tail).map Prod.fst := by
        rw [List.concat_eq_append, List.append_assoc, List.map_append] at nodup
        have middle : (q :: (front.map Prod.fst ++ tail.map Prod.fst)).Nodup :=
          List.nodup_middle.mp nodup
        rw [List.map_append]
        exact (List.nodup_cons.mp middle).1
      rw [write]
      by_cases same : j = i
      · subst same
        rw [Function.update_self, List.concat_eq_append, List.append_assoc]
        exact (chain_eq ▸ h.linked j).splice new outside
      · rw [Function.update_of_ne same]
        refine (h.linked j).congr fun x member => Function.update_of_ne ?_ ..
        rintro rfl
        refine same (h.apart j i x member ?_)
        rw [chain_eq]
        simp

/-- A cell is taken out of its chain by storing its next address in the link to it. -/
theorem unlink (h : Represents s chain) (split : chain i = before ++ (p, k) :: after) :
    Represents (s.write (linkAfter i before) (first after)) (Function.update chain i (before ++ after)) := by
  refine h.splice split ?_ ?_ ?_
  · have linked := h.linked i
    rw [split, List.append_cons] at linked
    exact linked.suffix
  · have nodup := h.nodup i
    rw [split] at nodup
    refine nodup.sublist (List.Sublist.map _ ?_)
    exact (List.sublist_cons_self _ _).append_left before
  · intro j q member member'
    refine h.apart j i q member' ?_
    rw [split, List.map_append]
    exact List.mem_append_right _ (List.mem_cons_of_mem _ member)

/-- When it is freed, the chains still cover the store. -/
theorem covers_unlink (covers : Covers chain s) (split : chain i = before ++ (p, k) :: after)
    (l : Link ι π) (r : Option π) :
    Covers (Function.update chain i (before ++ after)) ((s.write l r).setCell p none) := by
  intro q used
  have ne : q ≠ p := by
    rintro rfl
    exact used (Function.update_self ..)
  have before_free : (s.write l r).cell q ≠ none := by
    rwa [Store.setCell_cell_of_ne ne] at used
  obtain ⟨j, member⟩ := covers q (mt Store.write_cell_eq_none.mpr before_free)
  refine ⟨j, ?_⟩
  by_cases same : j = i
  · subst same
    rw [split] at member
    rw [Function.update_self]
    simpa [ne] using member
  · rwa [Function.update_of_ne same]

/-- A new cell without a next one is linked at the end of a chain. -/
theorem link (h : Represents s chain) (unused : Unused chain p) (new : s.cell p = some ⟨k, none⟩) :
    Represents (s.write (linkAfter i (chain i)) (some p)) (Function.update chain i (chain i ++ [(p, k)])) := by
  refine h.splice (List.append_nil _).symm ?_ ?_ ?_
  · exact ⟨rfl, none, new, rfl⟩
  · rw [List.map_append]
    refine List.Nodup.append (h.nodup i) (List.nodup_singleton p) ?_
    intro q member here
    rw [List.map_singleton, List.mem_singleton] at here
    rw [show q = p from here] at member
    exact unused i member
  · intro j q member member'
    rw [List.map_singleton, List.mem_singleton] at member
    exact absurd member' (member ▸ unused j)

theorem covers_link (covers : Covers chain s) (c : Option (Cell π κ)) (l : Link ι π) (r : Option π) :
    Covers (Function.update chain i (chain i ++ [(p, k)])) ((s.setCell p c).write l r) := by
  intro q used
  have used' : (s.setCell p c).cell q ≠ none := mt Store.write_cell_eq_none.mpr used
  by_cases here : q = p
  · subst here
    exact ⟨i, by simp⟩
  · rw [Store.setCell_cell_of_ne here] at used'
    obtain ⟨j, member⟩ := covers q used'
    refine ⟨j, ?_⟩
    by_cases same : j = i
    · subst same
      rw [Function.update_self, List.map_append]
      exact List.mem_append_left _ member
    · rwa [Function.update_of_ne same]

/-- A new cell that leads to the first one is linked in front of a chain. -/
theorem push (h : Represents s chain) (unused : Unused chain p) (new : s.cell p = some ⟨k, s.head i⟩) :
    Represents (s.write (.head i) (some p)) (Function.update chain i ((p, k) :: chain i)) := by
  refine h.splice (List.nil_append (chain i)).symm ?_ ?_ ?_
  · exact ⟨rfl, s.head i, new, h.linked i⟩
  · exact List.nodup_cons.mpr ⟨unused i, h.nodup i⟩
  · intro j q member member'
    obtain here | inside := List.mem_cons.mp member
    · exact absurd member' (here ▸ unused j)
    · exact h.apart j i q member' inside

end Represents

/-! ## Walks -/

/-- A walk along the chain from an address on meets the key. -/
def Ahead (entries : List (π × κ)) (k : κ) (p : Option π) : Prop :=
  ∃ before after, entries = before ++ after ∧ p = first after ∧ k ∈ after.map Prod.snd

namespace Ahead

variable {entries before after tail : List (π × κ)} {k j : κ} {p : Option π} {q : π}

theorem start (member : k ∈ entries.map Prod.snd) : Ahead entries k (first entries) :=
  ⟨[], entries, rfl, rfl, member⟩

theorem exists_entry (h : Ahead entries k p) : ∃ before q j after,
    entries = before ++ (q, j) :: after ∧ p = some q ∧ (j = k ∨ k ∈ after.map Prod.snd) := by
  obtain ⟨before, after, split, rfl, member⟩ := h
  cases after with
  | nil => cases member
  | cons e rest => exact ⟨before, e.1, e.2, rest, split, rfl, (List.mem_cons.mp member).imp_left Eq.symm⟩

/-- What a walk finds at the address: the key, or a next address from which it is ahead. -/
theorem cell {ι : Type u} {s : Store ι π κ} {chain : ι → List (π × κ)} {i : ι} (rep : Represents s chain)
    (h : Ahead (chain i) k (some q)) : ∃ c, s.cell q = some c ∧
      (c.key = k → (q, k) ∈ chain i) ∧ (c.key ≠ k → Ahead (chain i) k c.next) := by
  obtain ⟨before, q', j, after, split, same, key⟩ := h.exists_entry
  cases same
  refine ⟨⟨j, first after⟩, rep.cell_eq split, ?_, fun ne => ?_⟩
  · rintro rfl
    rw [split]
    exact List.mem_append_right _ List.mem_cons_self
  · exact ⟨before ++ [(q, j)], after, by simp [split], rfl, key.resolve_left ne⟩

theorem append (h : Ahead entries k p) : Ahead (entries ++ tail) k p := by
  obtain ⟨before, q, j, after, rfl, rfl, key⟩ := h.exists_entry
  refine ⟨before, (q, j) :: after ++ tail, by simp, rfl, ?_⟩
  obtain rfl | member := key
  · exact List.mem_cons_self
  · rw [List.map_append]
    exact List.mem_append_left _ (List.mem_cons_of_mem _ member)

/-- When another key is taken out, the walk stands at its cell or is not concerned. -/
theorem remove (h : Ahead (before ++ (q, j) :: after) k p) (ne : j ≠ k) :
    Ahead (before ++ after) k p ∨ p = some q ∧ Ahead (before ++ after) k (first after) := by
  obtain ⟨front, rest, split, rfl, member⟩ := h
  obtain ⟨middle, rfl, back⟩ | ⟨middle, rfl, back⟩ := List.append_eq_append_iff.mp split
  · cases middle with
    | nil =>
        obtain rfl : rest = (q, j) :: after := back.symm
        have behind := (List.mem_cons.mp member).resolve_left (Ne.symm ne)
        exact .inr ⟨rfl, before, after, rfl, rfl, behind⟩
    | cons e middle =>
        obtain ⟨-, rfl⟩ := List.cons.inj back
        exact .inl ⟨before ++ middle, rest, by simp, rfl, member⟩
  · subst back
    cases middle with
    | nil =>
        have behind := (List.mem_cons.mp member).resolve_left (Ne.symm ne)
        refine .inr ⟨rfl, front, after, by simp, rfl, behind⟩
    | cons e middle =>
        refine .inl ⟨front, e :: (middle ++ after), by simp, rfl, ?_⟩
        simp only [List.cons_append, List.map_cons, List.map_append, List.mem_cons, List.mem_append] at member ⊢
        obtain here | inside | same | behind := member
        · exact .inl here
        · exact .inr (.inl inside)
        · exact absurd same.symm ne
        · exact .inr (.inr behind)

end Ahead

end Heap
