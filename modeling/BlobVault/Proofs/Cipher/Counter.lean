import BlobVault.DataKey

/-!
# One stream for each key and reference

What a data key does to a blob is the exclusive or with the start of one infinite stream, however
long the blob is.  All that is used of the cipher follows: it undoes itself, keeps lengths, and works
byte by byte.

* `Bytes.mask` : data under the start of a stream;
* `Counter.keystreamBytes_eq` : the blocks that are made are the start of the keystream;
* `Counter.apply_eq_mask` : hiding is masking with the keystream;
* `DataKey.hides_iff` : **for every data key and reference there is exactly one stream, and the
  bytes of the key and the first half of the reference determine it.**
-/

namespace BlobVault

namespace Bytes

theorem xor_xor_self {xs ks : Bytes} (h : xs.length ≤ ks.length) :
    xor (xor xs ks) ks = xs := by
  induction xs generalizing ks with
  | nil => rfl
  | cons x xs ih =>
    cases ks with
    | nil => simp at h
    | cons k ks =>
      simp only [List.length_cons, Nat.add_le_add_iff_right] at h
      have := ih h
      simp only [xor, List.zipWith_cons_cons, List.cons.injEq] at this ⊢
      exact ⟨by rw [UInt8.xor_assoc, UInt8.xor_self, UInt8.xor_zero], this⟩

/-- Data under the start of a stream. -/
def mask (stream : Nat → UInt8) (data : Bytes) : Bytes :=
  xor data ((List.range data.length).map stream)

variable (stream : Nat → UInt8) (data : Bytes)

/-- What is more of the stream than there is data does not matter. -/
theorem xor_eq_mapIdx {n : Nat} (h : data.length ≤ n) :
    xor data ((List.range n).map stream) = data.mapIdx fun j b => b ^^^ stream j := by
  refine (List.mapIdx_eq_iff.2 fun j => ?_).symm
  rw [xor, List.getElem?_zipWith]
  by_cases hj : j < data.length
  · simp [hj, Nat.lt_of_lt_of_le hj h]
  · simp [List.getElem?_eq_none (Nat.le_of_not_lt hj)]

theorem mask_eq_mapIdx : mask stream data = data.mapIdx fun j b => b ^^^ stream j :=
  xor_eq_mapIdx stream data (Nat.le_refl _)

@[simp] theorem length_mask : (mask stream data).length = data.length := by
  rw [mask_eq_mapIdx, List.length_mapIdx]

theorem mask_mask : mask stream (mask stream data) = data := by
  have hlength : data.length ≤ ((List.range data.length).map stream).length := by simp
  rw [mask, length_mask, mask, xor_xor_self hlength]

theorem mask_take (n : Nat) : mask stream (data.take n) = (mask stream data).take n := by
  simp only [mask_eq_mapIdx]
  refine List.mapIdx_eq_iff.2 fun j => ?_
  rw [List.getElem?_take, List.getElem?_take, List.getElem?_mapIdx]
  split <;> rfl

theorem mask_set (j : Nat) (b : UInt8) :
    mask stream (data.set j b) = (mask stream data).set j (b ^^^ stream j) := by
  simp only [mask_eq_mapIdx, List.mapIdx_set]

/-- A stream shows under enough zeros. -/
theorem mask_replicate (n : Nat) :
    mask stream (List.replicate n 0) = (List.range n).map stream := by
  rw [mask_eq_mapIdx]
  refine List.mapIdx_eq_iff.2 fun j => ?_
  by_cases hj : j < n <;> simp [hj]

/-- Streams that mask all data alike are the same. -/
theorem eq_of_mask {stream stream' : Nat → UInt8}
    (h : ∀ data, mask stream data = mask stream' data) : stream = stream' := by
  funext j
  have hzeros := h (List.replicate (j + 1) 0)
  rw [mask_replicate, mask_replicate, List.map_inj_left] at hzeros
  exact hzeros j (List.mem_range.2 (Nat.lt_succ_self j))

end Bytes

namespace Counter

/-! ### Blocks -/

theorem length_keystreamBlock (key iv : Bytes) (i : Nat) :
    (keystreamBlock key iv i).length = 16 := by
  rw [keystreamBlock, Aes.encrypt, Aes.State.length_toBytes]

/-- The blocks that are made, oldest first. -/
theorem reverse_blocksFrom (keys : List Aes.State) (counter blocks : Nat) (made : List Bytes) :
    (blocksFrom keys counter blocks made).reverse = made.reverse ++ (List.range blocks).map fun i =>
      (Aes.encryptWith keys
        (Aes.State.ofBytes (Bytes.ofNatBE 16 ((counter + i) % Nat.pow 2 128)))).toBytes := by
  -- each round moves the counter on and puts a block on what is made, so both are general
  induction blocks generalizing counter made with
  | zero => simp [blocksFrom]
  | succ blocks ih =>
    have hnext : ∀ i, counter + 1 + i = counter + (i + 1) := by omega
    rw [blocksFrom, ih, List.range_succ_eq_map, List.map_cons, List.map_map, List.reverse_cons,
      List.append_assoc]
    simp only [hnext]
    rfl

/-- A block is the part of the keystream at its place. -/
theorem map_keystream (key iv : Bytes) (i : Nat) :
    (List.range 16).map (fun j => keystream key iv (16 * i + j)) = keystreamBlock key iv i := by
  refine List.ext_getElem (by simp [length_keystreamBlock]) fun j hj hj' => ?_
  have hlt : j < 16 := by simpa using hj
  have hdiv : (16 * i + j) / 16 = i := by omega
  have hmod : (16 * i + j) % 16 = j := by omega
  rw [List.getElem_map, List.getElem_range, keystream, hdiv, hmod, List.getD_eq_getElem?_getD,
    List.getElem?_eq_getElem hj', Option.getD_some]

theorem flatten_keystreamBlocks (key iv : Bytes) (blocks : Nat) :
    ((List.range blocks).map (keystreamBlock key iv)).flatten =
      (List.range (16 * blocks)).map (keystream key iv) := by
  induction blocks with
  | zero => rfl
  | succ blocks ih =>
    rw [List.range_succ, List.map_append, List.flatten_append, ih, Nat.mul_succ, List.range_add,
      List.map_append, List.map_map, List.map_singleton, List.flatten_singleton,
      ← map_keystream key iv blocks]
    rfl

/-- The bytes that are made are the start of the keystream, up to a whole block. -/
theorem keystreamBytes_eq (key iv : Bytes) (n : Nat) :
    keystreamBytes key iv n = (List.range (16 * ((n + 15) / 16))).map (keystream key iv) := by
  rw [keystreamBytes, reverse_blocksFrom, ← flatten_keystreamBlocks]
  rfl

/-! ### Hiding -/

/-- Hiding is masking with the keystream. -/
theorem apply_eq_mask (key iv data : Bytes) :
    apply key iv data = Bytes.mask (keystream key iv) data := by
  rw [apply, keystreamBytes_eq, Bytes.mask_eq_mapIdx]
  exact Bytes.xor_eq_mapIdx _ data (by omega)

@[simp] theorem length_apply (key iv data : Bytes) : (apply key iv data).length = data.length := by
  rw [apply_eq_mask, Bytes.length_mask]

/-- Hiding twice reveals. -/
theorem apply_apply (key iv data : Bytes) : apply key iv (apply key iv data) = data := by
  rw [apply_eq_mask, apply_eq_mask, Bytes.mask_mask]

end Counter

namespace DataKey

theorem isKeyLength_iff {n : Nat} : isKeyLength n = true ↔ n = 16 ∨ n = 24 ∨ n = 32 := by
  simp [isKeyLength, or_assoc]

/-- Keys of three lengths are accepted. -/
theorem isOk_ofBytes (id : String) (bytes : Bytes) : (ofBytes id bytes).isOk ↔
    bytes.length = 16 ∨ bytes.length = 24 ∨ bytes.length = 32 := by
  rw [← isKeyLength_iff, ofBytes]
  split <;> simp_all [Except.isOk, Except.toBool]

theorem bytes_of_ofBytes {id : String} {bytes : Bytes} {key : DataKey}
    (h : ofBytes id bytes = .ok key) : key.bytes = bytes := by
  rw [ofBytes] at h
  split at h
  · rw [← Except.ok.inj h]
  · cases h

/-- The stream is what the data key hides and reveals the blob of a reference with. -/
structure Hides (key : DataKey) (r : Ref) (stream : Nat → UInt8) : Prop where
  /-- Each block of it is the encryption of the counter, which starts as the first half of the
  reference and wraps around. -/
  block : ∀ i, (List.range 16).map (fun j => stream (16 * i + j)) =
    Aes.encrypt key.bytes
      (Bytes.ofNatBE 16 ((Bytes.toNatBE (r.bytes.take 16) + i) % Nat.pow 2 128))
  masks : ∀ data, key.apply r data = Bytes.xor data ((List.range data.length).map stream)
  twice : ∀ data, key.apply r (key.apply r data) = data
  length : ∀ data, (key.apply r data).length = data.length
  take : ∀ n data, key.apply r (data.take n) = (key.apply r data).take n
  /-- A byte that is changed does not show in any other. -/
  set : ∀ j b data, key.apply r (data.set j b) = (key.apply r data).set j (b ^^^ stream j)

@[simp] theorem length_apply (key : DataKey) (r : Ref) (data : Bytes) :
    (key.apply r data).length = data.length :=
  Counter.length_apply _ _ _

theorem apply_apply (key : DataKey) (r : Ref) (data : Bytes) :
    key.apply r (key.apply r data) = data :=
  Counter.apply_apply _ _ _

theorem apply_eq_mask (key : DataKey) (r : Ref) (data : Bytes) :
    key.apply r data = Bytes.mask (Counter.keystream key.bytes r.counterBlock) data :=
  Counter.apply_eq_mask _ _ _

theorem hides_keystream (key : DataKey) (r : Ref) :
    key.Hides r (Counter.keystream key.bytes r.counterBlock) where
  block := Counter.map_keystream key.bytes r.counterBlock
  masks := key.apply_eq_mask r
  twice := key.apply_apply r
  length := key.length_apply r
  take n data := by rw [apply_eq_mask, apply_eq_mask, Bytes.mask_take]
  set j b data := by rw [apply_eq_mask, apply_eq_mask, Bytes.mask_set]

/-- **Keys of 16, 24 and 32 bytes are accepted and no others, and for every reference there is
exactly one stream that such a key hides the blob with: the keystream of the bytes of the key and the
first half of the reference.** -/
theorem hides_iff (id : String) (bytes : Bytes) :
    ((ofBytes id bytes).isOk ↔ bytes.length = 16 ∨ bytes.length = 24 ∨ bytes.length = 32) ∧
      ∀ key, ofBytes id bytes = .ok key → ∀ r stream,
        key.Hides r stream ↔ stream = Counter.keystream bytes (r.bytes.take 16) := by
  refine ⟨isOk_ofBytes id bytes, fun key hkey r stream => ?_⟩
  rw [← bytes_of_ofBytes hkey]
  -- zeros of any length show the stream, so there is no other
  constructor
  · intro h
    exact Bytes.eq_of_mask fun data => (h.masks data).symm.trans (key.apply_eq_mask r data)
  · rintro rfl
    exact key.hides_keystream r

/-- The counter wraps around. -/
example : Counter.counterBlock (List.replicate 16 255) 1 = List.replicate 16 0 := by decide

end DataKey

end BlobVault
