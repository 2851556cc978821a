import BlobVault.Catalog.Documents
import BlobVault.Vault.Basic

/-!
# Mounting

A volume says who it is: its descriptor is kept under the reference of zero bytes.  A backend is
bound to a volume only if its descriptor carries the identifier that the volume should have.  A
backend without a descriptor is prepared, that is, given one, only on request or if the volume is
known to hold no blob; so a disk that failed to appear is never taken for a new one.
-/

namespace BlobVault.Vault

/-- Reads the descriptor of a backend. -/
def readDescriptor (v : Vault) (b : BackendId) : Except Fault Descriptor × Vault :=
  match v.rawFetch b .descriptor with
  | (.error fault, v) => (.error fault, v)
  | (.ok s, v) =>
    match s.content with
    | .error fault => (.error (.ofIo fault), v)
    | .ok document =>
      match readJson Descriptor.shape Descriptor.ofDatum? document with
      | .error fault => (.error (.configuration (.badDescriptor fault)), v)
      | .ok d => (.ok d, v)

/-- Writes the descriptor of a backend. -/
def writeDescriptor (v : Vault) (b : BackendId) (d : Descriptor) : Except Fault Unit × Vault :=
  v.rawStore b .descriptor (.ofBytes (Utf8.encode d.toJson.render))

/-- Gives a backend without a descriptor one. -/
def prepare (v : Vault) (uuid : Uuid) (b : BackendId) : Except Fault Unit × Vault :=
  match v.readDescriptor b with
  | (.ok found, v) => (.error (.configuration (.alreadyInitialized found.uuid)), v)
  | (.error fault, v) => if fault.isNotFound then v.writeDescriptor b ⟨uuid⟩ else (.error fault, v)

/-- Binds a volume to a backend whose descriptor carries the volume's identifier. -/
def mount (v : Vault) (id : VolumeId) (uuid : Uuid) (b : BackendId) : Except Fault Unit × Vault :=
  match v.readDescriptor b with
  | (.error fault, v) => (.error fault, v)
  | (.ok found, v) =>
    if found.uuid ≠ uuid then (.error (.configuration (.wrongVolume id found.uuid uuid)), v)
    else if v.isMounted id then (.error (.configuration (.alreadyMounted id)), v)
    else (.ok (), { v with mounts := v.mounts.insert id b })

/-- Mounts a volume, and prepares its backend first if it has no descriptor and the volume never
held a blob. -/
def mountOrPrepare (v : Vault) (volume : Volume) (b : BackendId) : Except Fault Unit × Vault :=
  match v.mount volume.id volume.uuid b with
  | (.ok (), v) => (.ok (), v)
  | (.error fault, v) =>
    if fault.isNotFound && volume.blobCount == 0 then
      match v.prepare volume.uuid b with
      | (.error fault, v) => (.error fault, v)
      | (.ok (), v) => v.mount volume.id volume.uuid b
    else (.error fault, v)

/-- Mounts one configured volume on a backend of its own. -/
def mountConfiguredOne (v : Vault) (m : Mount) : Except Fault VolumeId × Vault :=
  match v.catalog.findVolume m.volumeId with
  | .error fault => (.error (.ofCatalog fault), v)
  | .ok volume =>
    let (b, storage) := v.storage.addBackend m.backend.build
    match { v with storage := storage }.mountOrPrepare volume b with
    | (.error fault, v) => (.error fault, v)
    | (.ok (), v) => (.ok volume.id, v)

/-- Mounts configured volumes in order, up to the first that cannot be mounted. -/
def mountAll (v : Vault) : List Mount → Except Fault (List VolumeId) × Vault
  | [] => (.ok [], v)
  | m :: ms =>
    match v.mountConfiguredOne m with
    | (.error fault, v) => (.error fault, v)
    | (.ok id, v) =>
      match v.mountAll ms with
      | (.error fault, v) => (.error fault, v)
      | (.ok ids, v) => (.ok (id :: ids), v)

/-- Mounts the volumes that are configured for a node. -/
def mountConfigured (v : Vault) (node : String) (mounts : List Mount) :
    Except Fault (List VolumeId) × Vault :=
  v.mountAll (mounts.filter fun m => m.node == node)

end BlobVault.Vault
