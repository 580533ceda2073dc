import SmpVxd.Driver.Context

/-!
# Extended register state

The x87, SSE and AVX components of the extended state are saved and restored
separately: `fxsave` covers x87 and SSE, `xsave` covers the components of the
mask it is given. Which instruction is used depends on the CPU, on the Windows
version and on the direction.
-/

namespace SmpVxd

/-- The contents of the three components. -/
structure ExtState where
  x87 : Nat
  sse : Nat
  avx : Nat
  deriving DecidableEq, Repr

def ExtState.zero : ExtState := ⟨0, 0, 0⟩

inductive SaveMethod where
  | saveNop
  | saveFxsave
  | saveXsaveAll
  | saveXsaveAvx
  deriving DecidableEq, Repr

/-- Copy the components that a method covers; the others of `dst` stay. -/
def SaveMethod.copy (m : SaveMethod) (src dst : ExtState) : ExtState :=
  match m with
  | .saveNop => dst
  | .saveFxsave => { dst with x87 := src.x87, sse := src.sse }
  | .saveXsaveAll => src
  | .saveXsaveAvx => { dst with avx := src.avx }

/-- `fpu_save_method`: the system flag is dropped unless the state is restored. -/
def fpuSaveMethod (xsaveFlags : Dword) (noSysFxsave sys restore : Bool) : SaveMethod :=
  let sys := if sys && !restore then false else sys
  if sys then
    if xsaveFlags = 0 ∧ noSysFxsave then .saveFxsave
    else if xsaveFlags ≠ 0 ∧ noSysFxsave then .saveXsaveAll
    else if xsaveFlags ≠ 0 then .saveXsaveAvx
    else .saveNop
  else
    if xsaveFlags = 0 then .saveFxsave else .saveXsaveAll

/-- `fpu_save`: the live state goes to `dst`. -/
def fpuSave (xsaveFlags : Dword) (noSysFxsave sys : Bool) (live dst : ExtState) : ExtState :=
  (fpuSaveMethod xsaveFlags noSysFxsave sys false).copy live dst

/-- `fpu_restore`: `src` goes to the live state. -/
def fpuRestore (xsaveFlags : Dword) (noSysFxsave sys : Bool) (src live : ExtState) : ExtState :=
  (fpuSaveMethod xsaveFlags noSysFxsave sys true).copy src live

def fpuNeedExtraSave (xsaveFlags : Dword) (noSysFxsave restore : Bool) : Bool :=
  fpuSaveMethod xsaveFlags noSysFxsave true restore != .saveNop

/-- The AP kernel's own branch: `fxsave`/`fxrstor` without XSAVE, else all. -/
def apSaveMethod (xsaveFlags : Dword) : SaveMethod :=
  if xsaveFlags = 0 then .saveFxsave else .saveXsaveAll

/-! ### Agreement on what a method covers -/

/-- The parts of the extended state that are saved separately. -/
inductive Component where
  | x87
  | sse
  | avx
  deriving DecidableEq, Repr

def ExtState.component (x : ExtState) : Component → Nat
  | .x87 => x.x87
  | .sse => x.sse
  | .avx => x.avx

namespace SaveMethod

def covers : SaveMethod → Component → Bool
  | .saveNop, _ => false
  | .saveFxsave, c => c != .avx
  | .saveXsaveAll, _ => true
  | .saveXsaveAvx, c => c == .avx

theorem copy_component (m : SaveMethod) (src dst : ExtState) (c : Component) :
    (m.copy src dst).component c = if m.covers c then src.component c else dst.component c := by
  cases m <;> cases c <;> rfl

/-- The states have the same values in what the method covers. -/
def Agrees (m : SaveMethod) (x y : ExtState) : Prop :=
  ∀ c, m.covers c = true → x.component c = y.component c

variable {m m' : SaveMethod} {x y z : ExtState}

theorem Agrees.refl (m : SaveMethod) (x : ExtState) : m.Agrees x x := fun _ _ => rfl

theorem Agrees.symm (h : m.Agrees x y) : m.Agrees y x := fun c covered => (h c covered).symm

theorem Agrees.trans (h : m.Agrees x y) (h' : m.Agrees y z) : m.Agrees x z :=
  fun c covered => (h c covered).trans (h' c covered)

theorem Agrees.mono (h : m.Agrees x y) (less : ∀ c, m'.covers c = true → m.covers c = true) :
    m'.Agrees x y :=
  fun c covered => h c (less c covered)

theorem copy_agrees (m : SaveMethod) (src dst : ExtState) : m.Agrees (m.copy src dst) src := by
  intro c covered
  rw [copy_component, if_pos covered]

end SaveMethod

variable {xsaveFlags : Dword} {noSysFxsave : Bool}

theorem fpuSaveMethod_save (sys : Bool) :
    fpuSaveMethod xsaveFlags noSysFxsave sys false = apSaveMethod xsaveFlags := by
  cases sys <;> simp [fpuSaveMethod, apSaveMethod]

theorem fpuSaveMethod_user (restore : Bool) :
    fpuSaveMethod xsaveFlags noSysFxsave false restore = apSaveMethod xsaveFlags := by
  cases restore <;> simp [fpuSaveMethod, apSaveMethod]

/-- Nothing is restored in a thread switch that is not saved there. -/
theorem fpuSaveMethod_restore_covers (c : Component)
    (covered : (fpuSaveMethod xsaveFlags noSysFxsave true true).covers c = true) :
    (apSaveMethod xsaveFlags).covers c = true := by
  by_cases legacy : xsaveFlags = 0
  · cases noSysFxsave with
    | true => simpa [fpuSaveMethod, apSaveMethod, legacy] using covered
    | false => simp [fpuSaveMethod, legacy, SaveMethod.covers] at covered
  · rw [apSaveMethod, if_neg legacy]
    rfl

/-- The state of the old thread is always saved. -/
theorem fpuNeedExtraSave_save : fpuNeedExtraSave xsaveFlags noSysFxsave false = true := by
  rw [fpuNeedExtraSave, fpuSaveMethod_save, apSaveMethod]
  split <;> rfl

end SmpVxd
