import Ssgx.Boundary.OutsideBuffers

/-!
# What the enclave takes from the host

The functions that ask the host for a buffer and copy it into the enclave: `TomlConfig::GetString`
and `GetArrayValues`, `ReadPlainFile` with the readers over it, `CreateReport`, and
`VerifyRawQuoteWithQvE` up to the last use of the host's buffer. The pointer and the size are the
host's; each function checks the buffer and uses the pointer and the size that it checked.
-/

set_option autoImplicit false

namespace Ssgx.Boundary

open Ssgx.Support
open Ssgx.Attestation (sgxSuccess ErrorCode)

variable (outside : Nat → Nat → Bool)

/-! ## The functions -/

/-- What `GetString` and `GetArrayValues` do with the ocall of a name: the text, or `err_msg_`. -/
def fetchText (ocallName : Str) (refUntrustedTomlObj : Nat) (pathsStr : Str) :
    HostCall (Except Str (List UInt8)) :=
  if refUntrustedTomlObj = 0 then pure (.error (str "The TOML object has not been initialized"))
  else if pathsStr = [] then pure (.error (str "The input toml file path is empty"))
  else do
    let given ← ocall
    if given.1.status ≠ sgxSuccess then
      pure (.error (str "Enclave " ++ ocallName ++ str " function call failed, sgx status: 0x" ++
        hexText given.1.status.toNat))
    else if given.1.ret < 0 then
      pure (.error (str "Enclave " ++ ocallName ++ str " function call failed, error code: " ++
        toText given.1.ret))
    -- no text, or a size that is not positive, is the empty text
    else if given.2.address = 0 ∨ given.1.int32 ≤ 0 then pure (.ok [])
    else do
      let valueSize := given.1.int32.toNat
      let ok ← isOutsideEnclave outside given.2 valueSize
      if ok = false then
        pure (.error (str "The memory block pointed to by the pointer passed from the untrusted " ++
          str "execution environment contains trusted memory"))
      else do
        let ptrValueLen ← strnlen given.2 valueSize
        if ptrValueLen ≠ valueSize - 1 then do
          freeOutside outside (some given.2) valueSize
          pure (.error (str "The length of the string pointed to by the pointer passed from the " ++
            str "untrusted execution environment is incorrect"))
        else do
          let value ← copyIn given.2 ptrValueLen
          freeOutside outside (some given.2) valueSize
          pure (.ok value)

/-- `TomlConfig::GetString`. -/
def getString (refUntrustedTomlObj : Nat) (pathsStr : Str) : HostCall (Except Str (List UInt8)) :=
  fetchText outside (str "ssgx_ocall_toml_find_str") refUntrustedTomlObj pathsStr

/-- `TomlConfig::GetArrayValues`. -/
def getArrayValues (ptrToml : Nat) (pathStr : Str) : HostCall (Except Str (List UInt8)) :=
  fetchText outside (str "ssgx_ocall_toml_find_array") ptrToml pathStr

/-- `ReadPlainFile`: the buffer, where there is one, and its size. -/
def readPlainFile (filepath : Str) : HostCall (Option HostPointer × Nat) :=
  if filepath = [] then Call.raise (str "Invalid parameter, filepath is empty")
  else do
    let given ← ocall
    if given.1.status ≠ sgxSuccess then
      Call.raise (str "Failed to call function ssgx_ocall_read_file(), sgx status: 0x" ++
        hexText given.1.status.toNat)
    else if given.1.ret < 0 then
      Call.raise (str "Function ssgx_ocall_read_file() return errors, error code: " ++
        toText given.1.ret)
    else if 0 < given.1.sizeT then
      if given.2.address = 0 then Call.raise (str "Internal error, data_buf is nullptr")
      else do
        let ok ← isOutsideEnclave outside given.2 given.1.sizeT
        if ok = false then
          Call.raise (str "Invalid external input detected, with traces of enclave memory found")
        else pure (some given.2, given.1.sizeT)
    else pure (none, given.1.sizeT)

/-- `PlainFileReader::ReadAllBytes` and `ReadAllText`, which differ in the type of what they return.
-/
def readAll (filepath : Str) : HostCall (List UInt8) := do
  let read ← readPlainFile outside filepath
  match read.1 with
  | none => pure []
  | some dataBuffer => do
      let result ← copyIn dataBuffer read.2
      freeOutside outside (some dataBuffer) read.2
      pure result

/-- `CreateReport`: the quote that is encoded into the report, or the error. `created` is the status
of `sgx_create_report`. -/
def createReport (created : UInt32) : HostCall (Except (ErrorCode × Str) (List UInt8)) := do
  let target ← ocall
  if target.1.status ≠ sgxSuccess then
    pure (.error (.oCallOperationFailed,
      str "Failed to call ssgx_ocall_get_qe_target_info(), sgx_status: 0x" ++
        hexText target.1.status.toNat))
  else if target.1.ret ≠ 0 then
    pure (.error (.getTargetInfoFailed,
      str "Failed to call ssgx_ocall_get_qe_target_info(), ret: " ++ toText target.1.ret))
  else if created ≠ sgxSuccess then
    pure (.error (.createReportFailed,
      str "Failed to call sgx_create_report(), sgx_status: 0x" ++ hexText created.toNat))
  else do
    let given ← ocall
    if given.1.status ≠ sgxSuccess then
      pure (.error (.oCallOperationException,
        str "Failed to call ssgx_ocall_create_quote_data(), sgx_status: 0x" ++
          hexText given.1.status.toNat))
    else if given.1.ret ≠ 0 then
      pure (.error (.oCallOperationFailed,
        str "Failed to call ssgx_ocall_create_quote_data(), ret: " ++ toText given.1.ret))
    else do
      let ok ← isOutsideEnclave outside given.2 given.1.uint32
      if ok = false then
        pure (.error (.bufferValidateFailed,
          str "Failed to validate buffer p_quote_data, it is not outside of enclave."))
      else do
        let quote ← copyIn given.2 given.1.uint32
        freeOutside outside (some given.2) given.1.uint32
        pure (.ok quote)

/-- `VerifyRawQuoteWithQvE` up to its copy of the supplemental data. `selfTarget` is the status of
`sgx_self_target`. -/
def fetchSupplemental (selfTarget : UInt32) (quoteReport : List UInt8) :
    HostCall (Except (ErrorCode × Str) (List UInt8)) :=
  if quoteReport = [] then pure (.error (.invalidParameter, str "Parameter quote_report is null!"))
  else if selfTarget ≠ sgxSuccess then
    pure (.error (.getTargetInfoFailed,
      str "Failed to call sgx_self_target(), sgx_status: 0x" ++ hexText selfTarget.toNat))
  else do
    let given ← ocall
    if given.1.status ≠ sgxSuccess then
      pure (.error (.oCallOperationException,
        str "Failed to call ssgx_ocall_verify_quote_data(), sgx_status: 0x" ++
          hexText given.1.status.toNat))
    else if given.1.ret ≠ 0 then
      pure (.error (.oCallOperationFailed,
        str "Failed to call ssgx_ocall_verify_quote_data(), ret: " ++ toText given.1.ret))
    else do
      let ok ← isOutsideEnclave outside given.2 given.1.uint32
      if ok = false then
        pure (.error (.bufferValidateFailed,
          str "Failed to validate buffer p_quote_data, it is not outside of enclave."))
      else if given.2.address ≠ 0 ∧ 0 < given.1.uint32 then do
        let supplementalInsideBuff ← copyIn given.2 given.1.uint32
        freeOutside outside (some given.2) given.1.uint32
        pure (.ok supplementalInsideBuff)
      else pure (.ok [])

/-! ## Their accesses -/

variable {outside}

/-- A buffer that was checked is given back. -/
theorem careful_giveBack {α : Type} (p : HostPointer) (size : Nat) (result : α) :
    Careful outside (fun w => w.Allows p size)
      (do
        freeOutside outside (some p) size
        pure result)
      fun _ _ => True :=
  careful_bind ((careful_freeOutside p size).imp (fun _ hw => hw.received) fun _ _ hw => hw)
    fun _ => careful_pure fun _ hw => hw

/-- A buffer that was checked is copied in and given back. -/
theorem careful_takeIn {α : Type} {p : HostPointer} {count size : Nat} (h : count ≤ size)
    (result : List UInt8 → α) :
    Careful outside (fun w => w.Allows p size)
      (do
        let bytes ← copyIn p count
        freeOutside outside (some p) size
        pure (result bytes))
      fun _ _ => True :=
  careful_bind (careful_copyIn h) fun bytes => careful_giveBack p size (result bytes)

theorem careful_fetchText (ocallName : Str) (refUntrustedTomlObj : Nat) (pathsStr : Str) :
    Careful outside (fun _ => True) (fetchText outside ocallName refUntrustedTomlObj pathsStr)
      fun _ _ => True := by
  refine careful_ite (fun _ => careful_pure fun _ hw => hw) fun _ => ?_
  refine careful_ite (fun _ => careful_pure fun _ hw => hw) fun _ => ?_
  apply careful_bind careful_ocall
  rintro ⟨a, p⟩
  refine careful_ite (fun _ => careful_pure fun _ _ => trivial) fun _ => ?_
  refine careful_ite (fun _ => careful_pure fun _ _ => trivial) fun _ => ?_
  refine careful_ite (fun _ => careful_pure fun _ _ => trivial) fun _ => ?_
  apply careful_check (careful_pure fun _ hw => hw)
  apply careful_bind (careful_strnlen p a.int32.toNat)
  intro ptrValueLen
  refine careful_ite (fun _ => careful_giveBack p _ _) fun hlength => ?_
  -- the length is the size without the NUL, so the copy ends in front of the end of the buffer
  rw [not_not] at hlength
  exact careful_takeIn (hlength ▸ Nat.sub_le _ _) _

theorem careful_readPlainFile (filepath : Str) :
    Careful outside (fun _ => True) (readPlainFile outside filepath)
      fun read w => ∀ p, read.1 = some p → w.Allows p read.2 := by
  refine careful_ite (fun _ => careful_raise _ _) fun _ => ?_
  apply careful_bind careful_ocall
  rintro ⟨a, p⟩
  refine careful_ite (fun _ => careful_raise _ _) fun _ => ?_
  refine careful_ite (fun _ => careful_raise _ _) fun _ => ?_
  refine careful_ite (fun _ => ?_) fun _ => careful_pure fun _ _ _ hp => nomatch hp
  refine careful_ite (fun _ => careful_raise _ _) fun _ => ?_
  refine careful_check (careful_raise _ _) (careful_pure ?_)
  rintro w hallows p' hp'
  cases hp'
  exact hallows

theorem careful_readAll (filepath : Str) :
    Careful outside (fun _ => True) (readAll outside filepath) fun _ _ => True := by
  apply careful_bind (careful_readPlainFile filepath)
  rintro ⟨dataBuffer, size⟩
  cases dataBuffer with
  | none => exact careful_pure fun _ _ => trivial
  | some p =>
      exact (careful_takeIn (Nat.le_refl size) fun bytes => bytes).imp (fun w hw => hw p rfl)
        fun _ _ hw => hw

theorem careful_createReport (created : UInt32) :
    Careful outside (fun _ => True) (createReport outside created) fun _ _ => True := by
  apply careful_bind careful_ocall
  rintro ⟨target, -⟩
  refine careful_ite (fun _ => careful_pure fun _ _ => trivial) fun _ => ?_
  refine careful_ite (fun _ => careful_pure fun _ _ => trivial) fun _ => ?_
  refine careful_ite (fun _ => careful_pure fun _ _ => trivial) fun _ => ?_
  apply careful_bind (careful_ocall.imp (fun _ _ => trivial) fun _ _ hw => hw)
  rintro ⟨a, p⟩
  refine careful_ite (fun _ => careful_pure fun _ _ => trivial) fun _ => ?_
  refine careful_ite (fun _ => careful_pure fun _ _ => trivial) fun _ => ?_
  exact careful_check (careful_pure fun _ hw => hw) (careful_takeIn (Nat.le_refl _) _)

theorem careful_fetchSupplemental (selfTarget : UInt32) (quoteReport : List UInt8) :
    Careful outside (fun _ => True) (fetchSupplemental outside selfTarget quoteReport)
      fun _ _ => True := by
  refine careful_ite (fun _ => careful_pure fun _ hw => hw) fun _ => ?_
  refine careful_ite (fun _ => careful_pure fun _ hw => hw) fun _ => ?_
  apply careful_bind careful_ocall
  rintro ⟨a, p⟩
  refine careful_ite (fun _ => careful_pure fun _ _ => trivial) fun _ => ?_
  refine careful_ite (fun _ => careful_pure fun _ _ => trivial) fun _ => ?_
  apply careful_check (careful_pure fun _ hw => hw)
  refine careful_ite (fun _ => ?_) fun _ => careful_pure fun _ _ => trivial
  exact careful_takeIn (Nat.le_refl _) _

end Ssgx.Boundary
