import Mathlib.Init

/-!
# Remote archive receipts

`RemoteArchiveReceipt` of `archive/remote_receive.py`, as far as the Catalog reads it. `from_bytes`
accepts only the canonical bytes of a receipt that validates, so a receipt stands for its bytes.
-/

namespace MarketDataRecorder

/-! ## Texts -/

def isLowerHex (c : Char) : Bool := ('0' ≤ c ∧ c ≤ '9') ∨ ('a' ≤ c ∧ c ≤ 'f')

/-- `_is_lower_sha256`, `_require_sha256`. -/
def isLowerSha256 (value : String) : Bool :=
  value.toList.length = 64 ∧ value.toList.all isLowerHex

/-- What stands between the slashes. -/
def pathComponents (value : String) : List (List Char) := value.toList.splitOn '/'

/-- The paths that `_validate_relative_path` accepts. -/
def isRelativePath (value : String) : Bool :=
  value.toList ≠ [] ∧ value.toList.head? ≠ some '/' ∧ value.toList ≠ ['.'] ∧
    ['.', '.'] ∉ pathComponents value

/-- The paths that `_require_relative_path` accepts: equal to their `PurePosixPath`, relative,
without backslashes, and no component leads up. -/
def isCanonicalRelativePath (value : String) : Bool :=
  '\\' ∉ value.toList ∧
    (pathComponents value).all fun part => part ≠ [] ∧ part ≠ ['.'] ∧ part ≠ ['.', '.']

/-- The texts that `_require_safe_segment` accepts. -/
def isSafeSegment (value : String) : Bool :=
  value.toList ≠ [] ∧ value.toList ≠ ['.'] ∧ value.toList ≠ ['.', '.'] ∧ '/' ∉ value.toList ∧
    '\\' ∉ value.toList

/-- The texts that `_require_uuid4` accepts. -/
def isCanonicalUuid4 (value : String) : Bool :=
  let text := value.toList
  (text.splitOn '-').map List.length = [8, 4, 4, 4, 12] ∧
    (text.all fun c => c = '-' ∨ isLowerHex c) ∧ text.getD 14 '-' = '4' ∧
    text.getD 19 '-' ∈ ['8', '9', 'a', 'b']

/-- A canonical path is a relative one. -/
theorem isRelativePath_of_canonical {value : String} (h : isCanonicalRelativePath value = true) :
    isRelativePath value = true := by
  simp only [isCanonicalRelativePath, decide_eq_true_eq, List.all_eq_true] at h
  simp only [isRelativePath, decide_eq_true_eq]
  obtain ⟨-, hparts⟩ := h
  -- an empty path and a leading slash both make an empty first component
  have hempty : ([] : List Char) ∉ pathComponents value := fun hc => (hparts [] hc).1 rfl
  have hdot : ['.'] ∉ pathComponents value := fun hc => (hparts ['.'] hc).2.1 rfl
  refine ⟨?_, ?_, ?_, fun hc => (hparts ['.', '.'] hc).2.2 rfl⟩
  · intro hnil
    refine hempty ?_
    rw [pathComponents, hnil]
    decide
  · intro hhead
    refine hempty ?_
    rw [pathComponents]
    cases hvalue : value.toList with
    | nil => rw [hvalue] at hhead; cases hhead
    | cons c rest =>
      rw [hvalue] at hhead
      cases hhead
      simp [List.splitOn_eq_splitOnP, List.splitOnP_cons_eq_if_modifyHead]
  · intro heq
    refine hdot ?_
    rw [pathComponents, heq]
    decide

/-! ## Receipts -/

def remoteArchiveReceiptSchema : String := "remote-archive-receipt.v1"
def remoteReceiveVerificationVersion : String := "m22.3-receive-verification.v1"
def remoteReceiveVerificationOutcome : String := "VERIFIED"
def remoteSourceDescriptorSchema : String := "remote-source-descriptor.v1"

/-- `RemoteArchiveReceipt`. -/
structure RemoteArchiveReceipt where
  receiptSchemaVersion : String
  receiptId : String
  sessionId : String
  verificationVersion : String
  verificationOutcome : String
  sourceDescriptorSchemaVersion : String
  sourceDescriptorSha256 : String
  chunkId : String
  sourceRelativePath : String
  sourceManifestRelativePath : String
  sourceManifestSha256 : String
  storedBytes : Int
  storedSha256 : String
  archiveSetId : String
  storageId : String
  artifactRelativePath : String
  archiveSetEntrySha256 : String
  deriving DecidableEq

/-- `validate`; `identitySha256` is the digest of the canonical identity document. -/
def RemoteArchiveReceipt.isValid (identitySha256 : RemoteArchiveReceipt → String)
    (receipt : RemoteArchiveReceipt) : Bool :=
  receipt.receiptSchemaVersion = remoteArchiveReceiptSchema ∧
    receipt.verificationVersion = remoteReceiveVerificationVersion ∧
    receipt.verificationOutcome = remoteReceiveVerificationOutcome ∧
    receipt.sourceDescriptorSchemaVersion = remoteSourceDescriptorSchema ∧
    isCanonicalUuid4 receipt.sessionId ∧
    isSafeSegment receipt.chunkId ∧
    isCanonicalRelativePath receipt.sourceRelativePath ∧
    isCanonicalRelativePath receipt.sourceManifestRelativePath ∧
    isCanonicalRelativePath receipt.artifactRelativePath ∧
    isLowerSha256 receipt.receiptId ∧
    isLowerSha256 receipt.sourceDescriptorSha256 ∧
    isLowerSha256 receipt.sourceManifestSha256 ∧
    isLowerSha256 receipt.storedSha256 ∧
    isLowerSha256 receipt.archiveSetEntrySha256 ∧
    receipt.archiveSetId ≠ "" ∧
    receipt.storageId ≠ "" ∧
    0 ≤ receipt.storedBytes ∧
    receipt.receiptId = identitySha256 receipt

end MarketDataRecorder
