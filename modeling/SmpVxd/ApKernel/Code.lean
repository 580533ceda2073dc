import SmpVxd.X86.Symbolic
import SmpVxd.Driver.Context

/-!
# The code of the AP kernel

The functions of `apkernel.asm` as listings, with the offset from `_kernel_boot` at
which the assembler puts each instruction. `GetData` and `GetAPID` are the macros of
the source.
-/

namespace SmpVxd.ApKernel

open X86

/-! ## Layout of the kernel page -/

def switchtask : Word := 0xAB
def useFxrstor : Word := 0x122
def fpuLoaded : Word := 0x125
def switchBackEntry : Word := 0x136
def useFxsave : Word := 0x198
def fpuSaved : Word := 0x19B
def isBsp : Word := 0x200
def notBsp : Word := 0x225
def fly : Word := 0x300
def skipFly : Word := 0x336
def land : Word := 0x400
def skipLand : Word := 0x413
def errorIsrCode : Word := 0x601
def errorIsr : Word := 0x604
def int3Isr : Word := 0x619
def skip : Word := 0x647
def apData : Word := 0x700
def bspId : Word := apData
def ttable : Word := apData + 4
def gdata : Word := apData + 8

def fnBlockSize : Word := 0x100

/-! ## Structures -/

def clientEdi : Word := 0x00
def clientEsi : Word := 0x04
def clientEbp : Word := 0x08
def dwReserved1 : Word := 0x0C
def clientEbx : Word := 0x10
def clientEdx : Word := 0x14
def clientEcx : Word := 0x18
def clientEax : Word := 0x1C
def clientError : Word := 0x20
def clientEip : Word := 0x24
def clientCs : Word := 0x28
def clientEFlags : Word := 0x2C
def clientEsp : Word := 0x30
def clientSs : Word := 0x34
def clientEs : Word := 0x38
def clientDs : Word := 0x3C
def clientFs : Word := 0x40
def clientGs : Word := 0x44

def tdataCpuCr3 : Word := 12
def tdataXsaveflags : Word := 28
def tdataInitState : Word := 160
def tdataProcState : Word := 288
def tdataProcTss : Word := 416
def tdataFpuState : Word := 576

def gdataBspThread : Word := 0
def gdataApFreeCnt : Word := 4
def tsThreadIdleProc : Word := 16

def sysCs : Word := 0x8
def sysDs : Word := 0x10
def userCs : Word := 0x1B
def userDs : Word := 0x23

/-! ## Macros -/

/-- Point a register to `ap_data`. -/
def getData (o : Word) (r : Reg) : Listing :=
  [(o, .call (o + 5)),
   (o + 5, .pop r),
   (o + 6, .alu .add (.reg r) (.imm (apData - (o + 5))))]

/-- APIC id into EBX. -/
def getApid (o : Word) : Listing :=
  [(o, .mov (.reg .eax) (.imm 1)),
   (o + 5, .cpuid),
   (o + 7, .alu .shr (.reg .ebx) (.imm 24))]

/-! ## Functions -/

/-- `_switchtask`. -/
def switchtaskCode : Listing :=
  List.flatten [
    [(switchtask, .cli)],
    getData 0xAC .esi,
    getApid 0xB8,
    [(0xC2, .alu .shl (.reg .ebx) (.imm 3)),
     (0xC5, .mov (.reg .edi) (.mem .esi (ttable - apData))),
     (0xC8, .alu .add (.reg .edi) (.reg .ebx)),
     (0xCA, .mov (.reg .esi) (.mem .edi 4)),
     (0xCD, .mov (.reg .eax) (.mem .esi tdataCpuCr3)),
     (0xD0, .movCr3 .eax),
     (0xD3, .alu .add (.reg .esi) (.imm tdataProcState)),
     -- the frame of iret
     (0xD9, .push (.imm userDs)),
     (0xDB, .push (.mem .esi clientEsp)),
     (0xDE, .mov (.reg .eax) (.mem .esi clientEFlags)),
     (0xE1, .alu .or (.reg .eax) (.imm eflagsSet)),
     (0xE6, .alu .and (.reg .eax) (.imm (~~~eflagsClr))),
     (0xEB, .push (.reg .eax)),
     (0xEC, .push (.imm userCs)),
     (0xEE, .push (.mem .esi clientEip)),
     -- the frame of popad
     (0xF1, .push (.mem .esi clientEax)),
     (0xF4, .push (.mem .esi clientEcx)),
     (0xF7, .push (.mem .esi clientEdx)),
     (0xFA, .push (.mem .esi clientEbx)),
     (0xFD, .push (.mem .esi clientEsp)),
     (0x100, .push (.mem .esi clientEbp)),
     (0x103, .push (.mem .esi clientEsi)),
     (0x106, .push (.mem .esi clientEdi)),
     -- the extended state
     (0x108, .alu .sub (.reg .esi) (.imm tdataProcState)),
     (0x10E, .mov (.reg .eax) (.mem .esi tdataXsaveflags)),
     (0x111, .alu .add (.reg .esi) (.imm tdataFpuState)),
     (0x117, .test (.reg .eax) (.reg .eax)),
     (0x119, .jcc .z useFxrstor),
     (0x11B, .alu .xor (.reg .edx) (.reg .edx)),
     (0x11D, .xrstor .esi),
     (0x120, .jmp fpuLoaded),
     (useFxrstor, .fxrstor .esi),
     -- segments
     (fpuLoaded, .mov (.reg .eax) (.imm userDs)),
     (0x12A, .movSeg .ds .eax),
     (0x12C, .movSeg .es .eax),
     (0x12E, .movSeg .gs .eax),
     (0x130, .alu .xor (.reg .eax) (.reg .eax)),
     (0x132, .movSeg .fs .eax),
     (0x134, .popad),
     (0x135, .iret)]]

/-- `switch_back`. -/
def switchBackCode : Listing :=
  List.flatten [
    [(switchBackEntry, .cld)],
    getApid 0x137,
    [(0x141, .alu .shl (.reg .ebx) (.imm 3)),
     (0x144, .mov (.reg .edi) (.mem .esi (ttable - apData))),
     (0x147, .alu .add (.reg .edi) (.reg .ebx)),
     (0x149, .mov (.reg .ebx) (.mem .edi 4)),
     -- fix ebp
     (0x14C, .mov (.reg .eax) (.mem .ebp 0)),
     (0x14F, .mov (.mem .ebp (-24)) (.reg .eax)),
     -- save proc state
     (0x152, .lea .edi .ebx tdataProcState),
     (0x158, .mov (.reg .eax) (.mem .ebp 12)),
     (0x15B, .alu .and (.reg .eax) (.imm (~~~eflagsMask))),
     (0x160, .mov (.reg .edx) (.mem .edi clientEFlags)),
     (0x163, .alu .and (.reg .edx) (.imm eflagsMask)),
     (0x169, .alu .or (.reg .eax) (.reg .edx)),
     (0x16B, .mov (.mem .edi clientEFlags) (.reg .eax)),
     (0x16E, .mov (.reg .eax) (.mem .ebp 16)),
     (0x171, .mov (.mem .edi clientEsp) (.reg .eax)),
     (0x174, .mov (.reg .eax) (.mem .ebp 4)),
     (0x177, .mov (.mem .edi clientEip) (.reg .eax)),
     (0x17A, .mov (.reg .ecx) (.imm 8)),
     (0x17F, .lea .esi .ebp (-32)),
     (0x182, .repMovsd),
     -- save FPU state
     (0x184, .mov (.reg .eax) (.mem .ebx tdataXsaveflags)),
     (0x187, .lea .edi .ebx tdataFpuState),
     (0x18D, .test (.reg .eax) (.reg .eax)),
     (0x18F, .jcc .z useFxsave),
     (0x191, .alu .xor (.reg .edx) (.reg .edx)),
     (0x193, .xsave .edi),
     (0x196, .jmp fpuSaved),
     (useFxsave, .fxsave .edi),
     -- load init state
     (fpuSaved, .lea .esi .ebx tdataInitState),
     (0x1A1, .mov (.reg .esp) (.mem .esi clientEsp)),
     (0x1A4, .push (.mem .esi clientEFlags)),
     (0x1A7, .push (.imm sysCs)),
     (0x1A9, .push (.mem .esi clientEip)),
     (0x1AC, .push (.mem .esi clientEax)),
     (0x1AF, .push (.mem .esi clientEcx)),
     (0x1B2, .push (.mem .esi clientEdx)),
     (0x1B5, .push (.mem .esi clientEbx)),
     (0x1B8, .push (.mem .esi clientEsp)),
     (0x1BB, .push (.mem .esi clientEbp)),
     (0x1BE, .push (.mem .esi clientEsi)),
     (0x1C1, .push (.mem .esi clientEdi)),
     (0x1C3, .mov (.reg .eax) (.imm sysDs)),
     (0x1C8, .movSeg .ds .eax),
     (0x1CA, .movSeg .es .eax),
     (0x1CC, .movSeg .fs .eax),
     (0x1CE, .movSeg .gs .eax),
     (0x1D0, .popad),
     (0x1D1, .iret)]]

/-- `_is_bsp`. -/
def isBspCode : Listing :=
  List.flatten [
    [(isBsp, .push (.reg .esi)),
     (0x201, .push (.reg .ebx))],
    getData 0x202 .esi,
    getApid 0x20E,
    [(0x218, .mov (.reg .edx) (.reg .ebx)),
     (0x21A, .alu .xor (.reg .eax) (.reg .eax)),
     (0x21C, .cmp (.reg .ebx) (.mem .esi (bspId - apData))),
     (0x21E, .jcc .nz notBsp),
     (0x220, .mov (.reg .eax) (.imm 1)),
     (notBsp, .pop .ebx),
     (0x226, .pop .esi),
     (0x227, .ret)]]

/-- `_fly`. -/
def flyCode : Listing :=
  List.flatten [
    [(fly, .pushfd),
     (0x301, .push (.reg .eax)),
     (0x302, .push (.reg .ecx)),
     (0x303, .push (.reg .edx)),
     (0x304, .call isBsp),
     (0x309, .test (.reg .eax) (.reg .eax)),
     (0x30B, .jcc .z skipFly)],
    getData 0x30D .edx,
    [(0x319, .mov (.reg .edx) (.mem .edx (gdata - apData))),
     (0x31C, .mov (.reg .ecx) (.mem .edx gdataBspThread)),
     (0x31E, .test (.reg .ecx) (.reg .ecx)),
     (0x320, .jcc .z skipFly),
     (0x322, .mov (.reg .ecx) (.mem .ecx tsThreadIdleProc)),
     (0x325, .test (.reg .ecx) (.reg .ecx)),
     (0x327, .jcc .z skipFly),
     (0x329, .mov (.reg .ecx) (.mem .edx gdataApFreeCnt)),
     (0x32C, .test (.reg .ecx) (.reg .ecx)),
     (0x32E, .jcc .z skipFly),
     (0x330, .pop .edx),
     (0x331, .pop .ecx),
     (0x332, .pop .eax),
     (0x333, .popfd),
     (0x334, .int3),
     (0x335, .ret),
     (skipFly, .pop .edx),
     (0x337, .pop .ecx),
     (0x338, .pop .eax),
     (0x339, .popfd),
     (0x33A, .ret)]]

/-- `_land`. -/
def landCode : Listing :=
  [(land, .pushfd),
   (0x401, .push (.reg .eax)),
   (0x402, .push (.reg .ecx)),
   (0x403, .push (.reg .edx)),
   (0x404, .call isBsp),
   (0x409, .test (.reg .eax) (.reg .eax)),
   (0x40B, .jcc .nz skipLand),
   (0x40D, .pop .edx),
   (0x40E, .pop .ecx),
   (0x40F, .pop .eax),
   (0x410, .popfd),
   (0x411, .int3),
   (0x412, .ret),
   (skipLand, .pop .edx),
   (0x414, .pop .ecx),
   (0x415, .pop .eax),
   (0x416, .popfd),
   (0x417, .ret)]

/-- `_error_isr_code`, `_error_isr` and `_int3_isr`. -/
def isrCode : Listing :=
  List.flatten [
    [(errorIsrCode, .alu .add (.reg .esp) (.imm 4)),
     (errorIsr, .push (.reg .ebp)),
     (0x605, .mov (.reg .ebp) (.reg .esp)),
     (0x607, .pushad)],
    getData 0x608 .esi,
    [(0x614, .jmp switchBackEntry),
     (int3Isr, .push (.reg .ebp)),
     (0x61A, .mov (.reg .ebp) (.reg .esp)),
     (0x61C, .pushad)],
    getData 0x61D .esi,
    [(0x629, .mov (.reg .ecx) (.reg .esi)),
     (0x62B, .alu .sub (.reg .ecx) (.imm (apData - land))),
     (0x631, .mov (.reg .edx) (.mem .ebp 4)),
     (0x634, .cmp (.reg .edx) (.reg .ecx)),
     (0x636, .jcc .b skip),
     (0x638, .alu .add (.reg .ecx) (.imm fnBlockSize)),
     (0x63E, .cmp (.reg .edx) (.reg .ecx)),
     (0x640, .jcc .ae skip),
     (0x642, .jmp switchBackEntry),
     (skip, .mov (.reg .eax) (.mem .ebp 4)),
     (0x64A, .dec (.reg .eax)),
     (0x64B, .mov (.mem .ebp 4) (.reg .eax)),
     (0x64E, .jmp switchBackEntry)]]

def code : Listing := switchtaskCode ++ switchBackCode ++ isBspCode ++ flyCode ++ landCode ++ isrCode

end SmpVxd.ApKernel
