import Mathlib.Algebra.Ring.Nat
import Mathlib.Data.List.Basic

/-!
# The driver framework as the proximity driver uses it

Result codes, memory objects, I/O requests and the part of the framework that
completes and cancels requests.  The framework is code outside the repository:
a request is a record of what its methods return, a failing copy returns a
failure code chosen by the memory object, and the order in which cancellations
arrive is left to the actions of a run.
-/

namespace MiscProjects.Nfp

/-! ## Result codes -/

/-- An `HRESULT`; the top bit marks a failure. -/
abbrev HRESULT := BitVec 32

/-- The macro `SUCCEEDED`. -/
def succeeded (hr : HRESULT) : Bool := !hr.msb

def sOk : HRESULT := 0x00000000#32
def eAbort : HRESULT := 0x80004004#32
def eInvalidArg : HRESULT := 0x80070057#32
def eOutOfMemory : HRESULT := 0x8007000E#32

/-- The macro `HRESULT_FROM_NT`: the facility bit of an `NTSTATUS`. -/
def hresultFromNt (status : BitVec 32) : HRESULT := status ||| 0x10000000#32

def statusCancelled : BitVec 32 := 0xC0000120#32
def statusInvalidDeviceState : BitVec 32 := 0xC0000184#32
def statusInvalidBufferSize : BitVec 32 := 0xC0000206#32
def statusBufferOverflow : BitVec 32 := 0x80000005#32

/-- `HRESULT_FROM_WIN32(ERROR_OPERATION_ABORTED)`. -/
def operationAborted : HRESULT := 0x800703E3#32

@[simp] theorem succeeded_sOk : succeeded sOk = true := by decide

@[simp] theorem succeeded_eAbort : succeeded eAbort = false := by decide

@[simp] theorem succeeded_eInvalidArg : succeeded eInvalidArg = false := by
  decide

@[simp] theorem succeeded_statusCancelled : succeeded (hresultFromNt statusCancelled) = false := by
  decide

@[simp] theorem succeeded_statusCancelled_twice :
    succeeded (hresultFromNt (hresultFromNt statusCancelled)) = false := by
  decide

@[simp] theorem succeeded_statusInvalidDeviceState :
    succeeded (hresultFromNt statusInvalidDeviceState) = false := by
  decide

@[simp] theorem succeeded_statusBufferOverflow :
    succeeded (hresultFromNt statusBufferOverflow) = false := by
  decide

@[simp] theorem succeeded_statusInvalidBufferSize :
    succeeded (hresultFromNt statusInvalidBufferSize) = false := by
  decide

@[simp] theorem succeeded_eOutOfMemory : succeeded eOutOfMemory = false := by
  decide

/-! ## Memory objects and requests -/

/-- The four bytes of a `DWORD`, least significant first. -/
def dwordBytes (n : ℕ) : List UInt8 :=
  [UInt8.ofNat n, UInt8.ofNat (n / 256), UInt8.ofNat (n / 65536),
    UInt8.ofNat (n / 16777216)]

@[simp] theorem dwordBytes_length (n : ℕ) : (dwordBytes n).length = 4 := rfl

@[simp] theorem dwordBytes_take (n : ℕ) : (dwordBytes n).take 4 = dwordBytes n := rfl

/-- An `IWDFMemory`: the client's buffer, and the failure code that its
`CopyFromBuffer` returns for a copy that does not fit. -/
structure IWDFMemory where
  buffer : List UInt8
  outOfBounds : {hr : HRESULT // succeeded hr = false}
deriving DecidableEq

def IWDFMemory.getSize (memory : IWDFMemory) : ℕ := memory.buffer.length

/-- `IWDFMemory::GetDataBuffer(&cb) == NULL`: there is no data. -/
def IWDFMemory.hasNoData (memory : IWDFMemory) : Bool := memory.buffer.isEmpty

def IWDFMemory.copyFromBuffer
    (memory : IWDFMemory) (offset : ℕ) (source : List UInt8) :
    HRESULT × IWDFMemory :=
  if offset + source.length ≤ memory.getSize then
    (sOk,
      { memory with
        buffer := memory.buffer.take offset ++ source ++
          memory.buffer.drop (offset + source.length) })
  else (memory.outOfBounds, memory)

/-- An `IWDFIoRequest`; `none` is a memory object that `GetInputMemory` or
`GetOutputMemory` returns as `NULL`. -/
structure IWDFIoRequest where
  id : ℕ
  inputMemory : Option IWDFMemory
  outputMemory : Option IWDFMemory
deriving DecidableEq

/-- A request without input whose output buffer has `cb` bytes. -/
def readRequest (id cb : ℕ) : IWDFIoRequest where
  id := id
  inputMemory := some ⟨[], eInvalidArg, by decide⟩
  outputMemory := some ⟨List.replicate cb 0, eInvalidArg, by decide⟩

theorem copyFromBuffer_succeeded_iff (memory : IWDFMemory) (offset : ℕ) (source : List UInt8) :
    succeeded (memory.copyFromBuffer offset source).1 = true ↔
      offset + source.length ≤ memory.getSize := by
  unfold IWDFMemory.copyFromBuffer
  split
  case isTrue h => simp [h]
  case isFalse h => simp [h, memory.outOfBounds.2]

theorem copyFromBuffer_eq_sOk (memory : IWDFMemory) (offset : ℕ) (source : List UInt8)
    (hfit : offset + source.length ≤ memory.getSize) :
    (memory.copyFromBuffer offset source).1 = sOk := by
  simp [IWDFMemory.copyFromBuffer, hfit]

@[simp] theorem copyFromBuffer_getSize (memory : IWDFMemory) (offset : ℕ) (source : List UInt8) :
    (memory.copyFromBuffer offset source).2.getSize = memory.getSize := by
  unfold IWDFMemory.copyFromBuffer
  split
  case isTrue h =>
    simp only [IWDFMemory.getSize] at h ⊢
    simp
    omega
  case isFalse => rfl

/-! ## The framework's side of a request -/

/-- One `CompleteWithInformation` (or `Complete`) call: what the client sees
is the first `information` bytes of the request's output buffer. -/
structure Completion where
  request : ℕ
  hr : HRESULT
  information : ℕ
  output : List UInt8
deriving DecidableEq

/-- The framework's view of one file object.  `cancelled` lists the requests
whose cancel callback has run or will run, `due` those of them for which it has
still to run. -/
structure Framework where
  cancelled : List ℕ
  due : List ℕ
  completions : List Completion
deriving DecidableEq

/-- The bytes of the request's output buffer. -/
def IWDFIoRequest.outputBuffer (request : IWDFIoRequest) : List UInt8 :=
  match request.outputMemory with
  | none => []
  | some memory => memory.buffer

def Framework.completeWithInformation
    (request : IWDFIoRequest) (hr : HRESULT) (cbSize : ℕ) (fx : Framework) :
    Framework :=
  { fx with
    completions := fx.completions ++
      [{ request := request.id, hr := hr, information := cbSize,
         output := request.outputBuffer.take cbSize }] }

def Framework.complete (id : ℕ) (hr : HRESULT) (fx : Framework) : Framework :=
  { fx with
    completions := fx.completions ++
      [{ request := id, hr := hr, information := 0, output := [] }] }

/-- `IWDFIoRequest::UnmarkCancelable`: aborted exactly when the cancel callback
has run or will run. -/
def Framework.unmarkCancelable (fx : Framework) (request : IWDFIoRequest) :
    HRESULT :=
  if request.id ∈ fx.cancelled then operationAborted else sOk

/-- The framework cancels a request and owes it its cancel callback. -/
def Framework.cancel (id : ℕ) (fx : Framework) : Framework :=
  { fx with cancelled := id :: fx.cancelled, due := id :: fx.due }

/-- A request that was cancelled before it was marked cancelable: its callback
runs at once. -/
def Framework.cancelledEarly (id : ℕ) (fx : Framework) : Framework :=
  { fx with cancelled := id :: fx.cancelled }

/-- When the client cancels a request that is being marked cancelable: not at
all, `before` the `MarkCancelable` call (which then runs the callback in the
same thread) or `during` the rest of the critical section (the callback then
waits for the lock). -/
inductive CancelTiming
  | never
  | before
  | during
deriving DecidableEq

theorem unmarkCancelable_eq_aborted_iff (fx : Framework) (request : IWDFIoRequest) :
    fx.unmarkCancelable request = operationAborted ↔ request.id ∈ fx.cancelled := by
  unfold Framework.unmarkCancelable
  split
  case isTrue h => simp [h]
  case isFalse h =>
    simp only [h, iff_false]
    decide

end MiscProjects.Nfp
