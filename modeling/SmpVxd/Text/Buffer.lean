import Mathlib.Data.List.Range
import Mathlib.Logic.Function.Basic
import Mathlib.Data.Option.Basic

/-!
# Strings in buffers

A buffer has room for `cap` characters, and a position where the next one goes. A write at a
position past the end is no write of this buffer at all. The characters before the position
are the text that has been written.
-/

namespace Text

/-- The character that ends a string. -/
def nul : Char := Char.ofNat 0

structure Buffer (cap : Nat) where
  cells : Nat → Char
  out : Nat

namespace Buffer

variable {cap : Nat}

/-- Write at the position, and stay there. -/
def put (b : Buffer cap) (c : Char) : Option (Buffer cap) :=
  if b.out < cap then some { b with cells := Function.update b.cells b.out c } else none

/-- Write at the position, and move on. -/
def emit (b : Buffer cap) (c : Char) : Option (Buffer cap) :=
  (b.put c).map fun b => { b with out := b.out + 1 }

def emitAll (b : Buffer cap) (cs : List Char) : Option (Buffer cap) := cs.foldlM emit b

def text (b : Buffer cap) : List Char := (List.range b.out).map b.cells

/-- The string that begins with the buffer. -/
def string (b : Buffer cap) : List Char := ((List.range cap).map b.cells).takeWhile (· ≠ nul)

variable {b b' : Buffer cap} {c : Char} {cs : List Char}

@[simp] theorem length_text : b.text.length = b.out := by simp [text]

theorem put_iff : b.put c = some b' ↔
    b.out < cap ∧ { b with cells := Function.update b.cells b.out c } = b' := by
  rw [put]
  split
  next room => simp [room]
  next full => simp [full]

theorem emit_iff : b.emit c = some b' ↔
    b.out < cap ∧ ⟨Function.update b.cells b.out c, b.out + 1⟩ = b' := by
  rw [emit, Option.map_eq_some_iff]
  constructor
  · rintro ⟨u, written, rfl⟩
    obtain ⟨room, rfl⟩ := put_iff.1 written
    exact ⟨room, rfl⟩
  · rintro ⟨room, rfl⟩
    exact ⟨_, put_iff.2 ⟨room, rfl⟩, rfl⟩

theorem map_update_range (f : Nat → Char) (n : Nat) (c : Char) :
    (List.range n).map (Function.update f n c) = (List.range n).map f := by
  apply List.map_congr_left
  intro i mem
  have ne : i ≠ n := Nat.ne_of_lt (List.mem_range.1 mem)
  exact Function.update_of_ne ne c f

/-- A write at the position is not part of the text. -/
theorem text_put (written : b.put c = some b') : b'.text = b.text := by
  obtain ⟨-, rfl⟩ := put_iff.1 written
  exact map_update_range b.cells b.out c

theorem text_emit (written : b.emit c = some b') : b'.text = b.text ++ [c] := by
  obtain ⟨-, rfl⟩ := emit_iff.1 written
  change (List.range (b.out + 1)).map (Function.update b.cells b.out c) = _
  rw [List.range_succ, List.map_append, map_update_range, List.map_singleton, Function.update_self]
  rfl

theorem text_emitAll (written : b.emitAll cs = some b') : b'.text = b.text ++ cs := by
  induction cs generalizing b with
  | nil =>
      cases written
      exact (List.append_nil _).symm
  | cons c cs ih =>
      obtain ⟨u, first, rest⟩ := Option.bind_eq_some_iff.1 written
      rw [ih rest, text_emit first, List.append_assoc, List.singleton_append]

theorem emitAll_of_fits (fits : b.text.length + cs.length ≤ cap) : ∃ b', b.emitAll cs = some b' := by
  induction cs generalizing b with
  | nil => exact ⟨b, rfl⟩
  | cons c cs ih =>
      rw [length_text, List.length_cons] at fits
      have first : b.emit c = some ⟨Function.update b.cells b.out c, b.out + 1⟩ :=
        emit_iff.2 ⟨by omega, rfl⟩
      obtain ⟨b', written⟩ := @ih ⟨Function.update b.cells b.out c, b.out + 1⟩ (by
        rw [length_text]
        change b.out + 1 + cs.length ≤ cap
        omega)
      exact ⟨b', Option.bind_eq_some_iff.2 ⟨_, first, written⟩⟩

theorem put_of_room (room : b.text.length < cap) (c : Char) : ∃ b', b.put c = some b' := by
  rw [length_text] at room
  exact ⟨_, put_iff.2 ⟨room, rfl⟩⟩

/-- The string ends where the text does, if its end is written there. -/
theorem string_put_nul (plain : nul ∉ b.text) (written : b.put nul = some b') : b'.string = b.text := by
  obtain ⟨room, rfl⟩ := put_iff.1 written
  change ((List.range cap).map (Function.update b.cells b.out nul)).takeWhile _ = _
  obtain ⟨k, more⟩ := Nat.exists_eq_add_of_lt room
  have split : List.range cap = List.range b.out ++ (List.range (k + 1)).map (b.out + ·) := by
    rw [← List.range_add, ← Nat.add_assoc, ← more]
  rw [split, List.map_append, map_update_range, List.range_succ_eq_map, List.map_cons, List.map_cons,
    Nat.add_zero, Function.update_self]
  rw [List.takeWhile_append_of_pos, List.takeWhile_cons_of_neg, List.append_nil]
  · rfl
  · simp
  · intro c mem
    apply decide_eq_true
    rintro rfl
    exact plain mem

end Buffer

end Text
