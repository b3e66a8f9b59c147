import MaxApi.Lib.Checked
import MaxApi.TaskBilling.UsageContract
import MaxApi.TaskPlugin.Registry
import Mathlib.Algebra.BigOperators.Group.List.Basic
import Mathlib.Algebra.Ring.Nat

/-! # The task plugin catalog

A catalog snapshot is a set of stored packages with their flags.  `buildCatalogState` checks a
snapshot, compares it with the one before it, and makes the state that the host serves: requests
bind to the active packages, and tasks that were bound resolve to any package of the history. -/

namespace MaxApi.TaskPlugin

open Checked

structure PackageDocument where
  formatVersion : ℤ
  manifest : Manifest
  source : String
  deriving DecidableEq

/-- The functions the catalog takes from elsewhere. -/
structure Library extends TextLibrary where
  /-- The SHA-256 of the bytes of a text, in lower-case hexadecimal digits. -/
  sha256 : String → String
  /-- The document that a text encodes as an object of exactly its three fields. -/
  unmarshal : String → Option PackageDocument

def MaxPackageBytes : ℕ := 2 ^ 20

def MaxRetainedPackageBytes : ℕ := 64 * 2 ^ 20

variable (lib : Library)

/-- The checks of `LoadPackage` on a decoded document. -/
def acceptedDocument (d : PackageDocument) : Bool :=
  (d.formatVersion == 1 || d.formatVersion == 2) && d.source != "" &&
    (d.manifest.usageProfiles.isEmpty || d.formatVersion == 2) &&
    validateManifest lib.toTextLibrary d.manifest

/-- A package that has been loaded: its document has been checked. -/
structure Package where
  document : String
  content : PackageDocument
  decoded : lib.unmarshal document = some content
  accepted : acceptedDocument lib content = true
  small : document.utf8ByteSize ≤ MaxPackageBytes

variable {lib}

def Package.manifest (p : Package lib) : Manifest := p.content.manifest

def Package.digest (p : Package lib) : String := lib.sha256 p.document

def packageIdentity (key version : String) : String := key ++ "@" ++ version

def Package.identity (p : Package lib) : String :=
  packageIdentity p.manifest.key p.manifest.version

/-- A package is determined by its document. -/
theorem Package.eq_of_document {p q : Package lib} (h : p.document = q.document) : p = q := by
  obtain ⟨d, c, hd, ha, hs⟩ := p
  obtain ⟨d', c', hd', ha', hs'⟩ := q
  simp only at h
  subst h
  have hc : c = c' := Option.some.inj (hd.symm.trans hd')
  subst hc
  rfl

theorem Package.document_inj {p q : Package lib} : p.document = q.document ↔ p = q :=
  ⟨Package.eq_of_document, congrArg Package.document⟩

instance : DecidableEq (Package lib) := fun _ _ => decidable_of_iff _ Package.document_inj

theorem Package.valid (p : Package lib) : validateManifest lib.toTextLibrary p.manifest = true := by
  have h := p.accepted
  unfold acceptedDocument at h
  rw [Bool.and_eq_true] at h
  exact h.2

def isHexDigit (c : Char) : Bool :=
  isDigit c || ('a' ≤ c && c ≤ 'f') || ('A' ≤ c && c ≤ 'F')

/-- The 32 bytes of a pin, written with lower-case digits. -/
def decodePin (s : String) : Option String :=
  if s.toList.length = 64 ∧ s.toList.all isHexDigit then
    some (String.ofList (s.toList.map Char.toLower))
  else none

variable (lib)

/-- `LoadPackage`: a bounded document with the pinned hash. -/
def loadPackage (document expectedSHA256 : String) : Option (Package lib) :=
  if hsmall : document.utf8ByteSize ≤ MaxPackageBytes then
    if decodePin expectedSHA256 = some (lib.sha256 document) then
      match hdoc : lib.unmarshal document with
      | none => none
      | some d => if hd : acceptedDocument lib d then some ⟨document, d, hdoc, hd, hsmall⟩ else none
    else none
  else none

theorem loadPackage_document {document pin : String} {p : Package lib}
    (h : loadPackage lib document pin = some p) : p.document = document := by
  unfold loadPackage at h
  split at h
  · split at h
    · split at h
      · simp at h
      · split at h
        · obtain rfl := Option.some.inj h
          rfl
        · simp at h
    · simp at h
  · simp at h

/-! ### Snapshots -/

structure StoredPackage where
  document : String
  digest : String
  active : Bool
  enabled : Bool
  revoked : Bool
  deriving DecidableEq

structure CatalogSnapshot where
  revision : ℤ
  packages : List StoredPackage
  deriving DecidableEq

inductive CatalogError where
  | conflict
  | invalid
  | unavailable
  | bindingRejected
  deriving DecidableEq

def CatalogError.text : CatalogError → String
  | .conflict => "task plugin catalog changed; refresh before retrying"
  | .invalid => "task plugin catalog is invalid"
  | .unavailable => "task plugin catalog storage is unavailable"
  | .bindingRejected => "task plugin binding unavailable or unauthorized"

structure HostState where
  generation : ℤ
  active : Dict (Package lib)
  history : Dict (Package lib)
  revoked : Dict Bool
  routes : RegistryState

/-- What the loop of `buildCatalogState` over the packages carries. -/
structure Building where
  active : Dict (Package lib)
  history : Dict (Package lib)
  revoked : Dict Bool
  activeKeys : List String
  total : ℕ

def Building.start : Building lib := ⟨∅, ∅, ∅, [], 0⟩

/-- One package of the loop. -/
def addEntry (b : Building lib) (entry : StoredPackage) : Except CatalogError (Building lib) := do
  require (entry.document.utf8ByteSize ≤ MaxPackageBytes ∧
    b.total + entry.document.utf8ByteSize ≤ MaxRetainedPackageBytes) .invalid
  let p ← orThrow (loadPackage lib entry.document entry.digest) .invalid
  require (entry.digest = p.digest) .invalid
  require (b.history.lookup p.identity = none) .invalid
  require (entry.active = true → p.manifest.key ∉ b.activeKeys) .invalid
  pure {
    active := if entry.active && entry.enabled && !entry.revoked then
      b.active.insert p.manifest.key p else b.active
    history := b.history.insert p.identity p
    revoked := b.revoked.insert p.identity entry.revoked
    activeKeys := if entry.active then p.manifest.key :: b.activeKeys else b.activeKeys
    total := b.total + entry.document.utf8ByteSize }

/-- The manifests of the active packages, by key. -/
def activeManifests (active : Dict (Package lib)) : List Manifest :=
  (active.keys.insertionSort (· ≤ ·)).filterMap fun key =>
    (active.lookup key).map Package.manifest

/-- The state of a snapshot, on its own. -/
def catalogState (snapshot : CatalogSnapshot) : Except CatalogError (HostState lib) := do
  require (0 ≤ snapshot.revision ∧ (snapshot.revision = 0 → snapshot.packages = [])) .invalid
  let b ← snapshot.packages.foldlM (addEntry lib) (Building.start lib)
  let routes ← orThrow
    ((activeManifests lib b.active).foldlM (publish lib.toTextLibrary) RegistryState.empty) .invalid
  pure ⟨snapshot.revision, b.active, b.history, b.revoked, routes⟩

def flagText (b : Bool) : String := if b then "true" else "false"

def catalogFingerprint (snapshot : CatalogSnapshot) : String :=
  "\n".intercalate ((snapshot.packages.map fun e =>
    e.digest ++ ":" ++ flagText e.active ++ ":" ++ flagText e.enabled ++ ":" ++
      flagText e.revoked).insertionSort (· ≤ ·))

/-- A package of the snapshot before is still there, unchanged, and still revoked if it was. -/
def keepsEntry (state : HostState lib) (old : StoredPackage) : Except CatalogError Unit := do
  let p ← orThrow (loadPackage lib old.document old.digest) .invalid
  let current ← orThrow (state.history.lookup p.identity) .invalid
  require (current.digest = old.digest) .invalid
  require (old.revoked = true → state.revoked.lookup p.identity = some true) .invalid

/-- The comparison with the snapshot before. -/
def checkTransition (snapshot previous : CatalogSnapshot) (state : HostState lib) :
    Except CatalogError Unit := do
  require (previous.revision ≤ snapshot.revision ∧
    (snapshot.revision = previous.revision →
      catalogFingerprint snapshot = catalogFingerprint previous)) .invalid
  previous.packages.forM (keepsEntry lib state)

def buildCatalogState (snapshot previous : CatalogSnapshot) (checkPrevious : Bool) :
    Except CatalogError (HostState lib) := do
  let state ← catalogState lib snapshot
  if checkPrevious then checkTransition lib snapshot previous state
  pure state

def validateCatalogTransition (previous next : CatalogSnapshot) : Except CatalogError Unit := do
  let _ ← buildCatalogState lib next previous true
  pure ()

/-! ### Changes -/

/-- The packages before a change that `installCatalogPackages` compares the new one with. -/
def sameKey (key : String) (entry : StoredPackage) : Option (Package lib) :=
  (loadPackage lib entry.document entry.digest).filter fun old => old.manifest.key == key

/-- The index of the version of `p`, if it is there with the same bytes and not revoked. -/
def installedIndex (p : Package lib) :
    List StoredPackage → Except CatalogError (Option ℕ)
  | [] => pure none
  | entry :: entries => do
      let old ← orThrow (loadPackage lib entry.document entry.digest) .invalid
      let same := old.manifest.key = p.manifest.key ∧ old.manifest.version = p.manifest.version
      require (same → old.digest = p.digest ∧ entry.revoked = false) .invalid
      let index ← installedIndex p entries
      pure (match index with
        | some i => some (i + 1)
        | none => if same then some 0 else none)

def StoredPackage.activated (e : StoredPackage) : StoredPackage :=
  { e with active := true, enabled := true }

/-- One package of `installCatalogPackages`. -/
def installPackage (packages : List StoredPackage) (p : Package lib) :
    Except CatalogError (List StoredPackage) := do
  let index ← installedIndex lib p packages
  let others := packages.map fun e =>
    if (sameKey lib p.manifest.key e).isSome then { e with active := false } else e
  pure (match index with
    | some i => others.modify i StoredPackage.activated
    | none => others ++ [⟨p.document, p.digest, true, true, false⟩])

def installCatalogPackages (packages : List StoredPackage) (ps : List (Package lib)) :
    Except CatalogError (List StoredPackage) := do
  require (ps.map fun p => p.manifest.key).Nodup .invalid
  ps.foldlM (installPackage lib) packages

/-- The first package that satisfies `p`, if the ones before it can be loaded. -/
def findVersion (p : StoredPackage → Package lib → Bool) :
    List StoredPackage → Except CatalogError ℕ
  | [] => throw .bindingRejected
  | entry :: entries => do
      let loaded ← orThrow (loadPackage lib entry.document entry.digest) .invalid
      if p entry loaded then pure 0 else (· + 1) <$> findVersion p entries

/-- `catalogVersion` for a key and a version. -/
def versionIndex (packages : List StoredPackage) (key version : String) :
    Except CatalogError ℕ :=
  findVersion lib (fun _ p => p.manifest.key == key && p.manifest.version == version) packages

/-- `catalogVersion` for the active version of a key. -/
def activeIndex (packages : List StoredPackage) (key : String) : Except CatalogError ℕ :=
  findVersion lib (fun e p => p.manifest.key == key && e.active) packages

def activateCatalogVersion (packages : List StoredPackage) (key version : String) :
    Except CatalogError (List StoredPackage) := do
  let index ← versionIndex lib packages key version
  require ((packages[index]?).map StoredPackage.revoked ≠ some true) .bindingRejected
  let others := packages.map fun e =>
    if (sameKey lib key e).isSome then { e with active := false } else e
  pure (others.modify index StoredPackage.activated)

def setCatalogEnabled (packages : List StoredPackage) (key : String) (enabled : Bool) :
    Except CatalogError (List StoredPackage) := do
  let index ← activeIndex lib packages key
  require (enabled = true → (packages[index]?).map StoredPackage.revoked ≠ some true)
    .bindingRejected
  pure (packages.modify index fun e => { e with enabled := enabled })

def revokeCatalogVersion (packages : List StoredPackage) (key version : String) :
    Except CatalogError (List StoredPackage) := do
  let index ← versionIndex lib packages key version
  pure (packages.modify index fun e => { e with revoked := true, enabled := false })

/-- The changes of the catalog's operations. -/
inductive Change where
  | install (packages : List (Package lib))
  | activate (key version : String)
  | setEnabled (key : String) (enabled : Bool)
  /-- `enable` and `disable` of `MutateExpected`, which name the version too. -/
  | setVersionEnabled (key version : String) (enabled : Bool)
  | revoke (key version : String)
  deriving DecidableEq

def Change.apply : Change lib → List StoredPackage → Except CatalogError (List StoredPackage)
  | .install ps, packages => installCatalogPackages lib packages ps
  | .activate key version, packages => activateCatalogVersion lib packages key version
  | .setEnabled key enabled, packages => setCatalogEnabled lib packages key enabled
  | .setVersionEnabled key version enabled, packages => do
      let index ← versionIndex lib packages key version
      require ((packages[index]?).map StoredPackage.active = some true) .invalid
      setCatalogEnabled lib packages key enabled
  | .revoke key version, packages => revokeCatalogVersion lib packages key version

end MaxApi.TaskPlugin
