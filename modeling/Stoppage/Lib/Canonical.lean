import Stoppage.Lib.Borsh

/-! # Canonical readers

A reader is canonical for an encoding when it accepts the encodings of the values that fit and
nothing else: every value has one byte string, and what was accepted can be told from the value. The
rule of use is `Canonical.run_iff`: a value is read off a byte string exactly when the string starts
with the value's encoding.
-/

namespace Borsh
open LittleEndian
set_option autoImplicit false

variable {α β : Type}

structure Canonical (p : Reader α) (fits : α → Prop) (enc : α → List UInt8) : Prop where
  reads : ∀ x, fits x → Reads p (enc x) x
  accepts : ∀ bs x rest, p bs = some (x, rest) → fits x ∧ bs = enc x ++ rest

theorem Canonical.run_iff {p : Reader α} {fits : α → Prop} {enc : α → List UInt8}
    (h : Canonical p fits enc) {bs : List UInt8} {x : α} :
    run p bs = some x ↔ fits x ∧ enc x <+: bs := by
  constructor
  · intro hrun
    obtain ⟨⟨y, rest⟩, hp, hy⟩ := Option.map_eq_some_iff.mp hrun
    cases hy
    obtain ⟨hfits, hbs⟩ := h.accepts bs _ rest hp
    exact ⟨hfits, rest, hbs.symm⟩
  · rintro ⟨hfits, rest, rfl⟩
    exact (h.reads x hfits).run_append rest

/-! ## Words as bytes -/

theorem encode_decode_of_length {bs : List UInt8} {n : ℕ} (h : bs.length = n) :
    encode n (decode bs) = bs ∧ decode bs < 256 ^ n := by
  subst h
  exact ⟨encode_decode bs, decode_lt bs⟩

theorem encodeU16_decodeU16 {bs : List UInt8} (h : bs.length = 2) :
    encodeU16 (decodeU16 bs) = bs := by
  obtain ⟨henc, hlt⟩ := encode_decode_of_length h
  rw [encodeU16, decodeU16, UInt16.toNat_ofNat_of_lt' hlt, henc]

theorem encodeU32_decodeU32 {bs : List UInt8} (h : bs.length = 4) :
    encodeU32 (decodeU32 bs) = bs := by
  obtain ⟨henc, hlt⟩ := encode_decode_of_length h
  rw [encodeU32, decodeU32, UInt32.toNat_ofNat_of_lt' hlt, henc]

theorem encodeU64_decodeU64 {bs : List UInt8} (h : bs.length = 8) :
    encodeU64 (decodeU64 bs) = bs := by
  obtain ⟨henc, hlt⟩ := encode_decode_of_length h
  rw [encodeU64, decodeU64, UInt64.toNat_ofNat_of_lt' hlt, henc]

/-! ## Composition -/

section Bind
variable {σ : Type} {p : StateT σ Option α} {s t : σ} {y : β}

theorem bind_eq_some {q : α → StateT σ Option β} :
    (p >>= q) s = some (y, t) ↔ ∃ x u, p s = some (x, u) ∧ q x u = some (y, t) := by
  show (p s).bind (fun a => q a.1 a.2) = _ ↔ _
  rw [Option.bind_eq_some_iff]
  exact Prod.exists

theorem pure_eq_some {x : β} :
    (pure x : StateT σ Option β) s = some (y, t) ↔ x = y ∧ s = t := by
  show some (x, s) = _ ↔ _
  rw [Option.some_inj, Prod.mk.injEq]

theorem map_eq_some {f : α → β} :
    (f <$> p) s = some (y, t) ↔ ∃ x, p s = some (x, t) ∧ f x = y := by
  show (p s).bind (fun a => some (f a.1, a.2)) = _ ↔ _
  rw [Option.bind_eq_some_iff]
  constructor
  · rintro ⟨⟨x, u⟩, hp, he⟩
    cases he
    exact ⟨x, hp, rfl⟩
  · rintro ⟨x, hp, rfl⟩
    exact ⟨(x, t), hp, rfl⟩

theorem lift_eq_some {o : Option β} :
    (StateT.lift o : StateT σ Option β) s = some (y, t) ↔ o = some y ∧ s = t := by
  show o.bind (fun a => some (a, s)) = _ ↔ _
  rw [Option.bind_eq_some_iff]
  constructor
  · rintro ⟨x, rfl, he⟩
    cases he
    exact ⟨rfl, rfl⟩
  · rintro ⟨rfl, rfl⟩
    exact ⟨y, rfl, rfl⟩

end Bind

theorem canonical_unit : Canonical (pure ()) (fun _ => True) fun _ => [] where
  reads x _ := Reads.pure x
  accepts _ _ _ h := ⟨trivial, (pure_eq_some.mp h).2⟩

/-! ## Bytes and words -/

theorem bytes_eq_some {n : ℕ} {bs xs rest : List UInt8} :
    bytes n bs = some (xs, rest) ↔ xs.length = n ∧ bs = xs ++ rest := by
  constructor
  · intro h
    unfold bytes at h
    split at h
    · rename_i hn
      cases h
      exact ⟨by rw [List.length_take, Nat.min_eq_left hn], (List.take_append_drop n bs).symm⟩
    · cases h
  · rintro ⟨hn, rfl⟩
    exact reads_bytes hn rest

theorem byte_eq_some {bs rest : List UInt8} {b : UInt8} :
    byte bs = some (b, rest) ↔ bs = [b] ++ rest := by
  constructor
  · intro h
    cases bs with
    | nil => cases h
    | cons c cs =>
      cases h
      rfl
  · rintro rfl
    exact reads_byte b rest

theorem canonical_byte : Canonical byte (fun _ => True) fun b => [b] where
  reads b _ := reads_byte b
  accepts _ _ _ h := ⟨trivial, byte_eq_some.mp h⟩

theorem array_eq_some {n : ℕ} {bs rest : List UInt8} {xs : List.Vector UInt8 n} :
    array n bs = some (xs, rest) ↔ bs = xs.1 ++ rest := by
  constructor
  · intro h
    unfold array at h
    split at h
    · cases h
      exact (List.take_append_drop n bs).symm
    · cases h
  · rintro rfl
    exact reads_array xs rest

theorem u16_eq_some {bs rest : List UInt8} {x : UInt16} :
    u16 bs = some (x, rest) ↔ bs = encodeU16 x ++ rest := by
  constructor
  · intro h
    obtain ⟨xs, hxs, rfl⟩ := map_eq_some.mp h
    obtain ⟨hlength, rfl⟩ := bytes_eq_some.mp hxs
    rw [encodeU16_decodeU16 hlength]
  · rintro rfl
    exact reads_u16 x rest

theorem canonical_u16 : Canonical u16 (fun _ => True) encodeU16 where
  reads x _ := reads_u16 x
  accepts _ _ _ h := ⟨trivial, u16_eq_some.mp h⟩

theorem u32_eq_some {bs rest : List UInt8} {x : UInt32} :
    u32 bs = some (x, rest) ↔ bs = encodeU32 x ++ rest := by
  constructor
  · intro h
    obtain ⟨xs, hxs, rfl⟩ := map_eq_some.mp h
    obtain ⟨hlength, rfl⟩ := bytes_eq_some.mp hxs
    rw [encodeU32_decodeU32 hlength]
  · rintro rfl
    exact reads_u32 x rest

theorem u64_eq_some {bs rest : List UInt8} {x : UInt64} :
    u64 bs = some (x, rest) ↔ bs = encodeU64 x ++ rest := by
  constructor
  · intro h
    obtain ⟨xs, hxs, rfl⟩ := map_eq_some.mp h
    obtain ⟨hlength, rfl⟩ := bytes_eq_some.mp hxs
    rw [encodeU64_decodeU64 hlength]
  · rintro rfl
    exact reads_u64 x rest

theorem i64_eq_some {bs rest : List UInt8} {x : Int64} :
    i64 bs = some (x, rest) ↔ bs = encodeI64 x ++ rest := by
  constructor
  · intro h
    obtain ⟨xs, hxs, rfl⟩ := map_eq_some.mp h
    obtain ⟨hlength, rfl⟩ := bytes_eq_some.mp hxs
    rw [encodeI64_decodeI64 hlength]
  · rintro rfl
    exact reads_i64 x rest

/-! ## Vectors and strings -/

/-- A vector's length word is the number of its elements. -/
theorem u32_length_eq_some {bs rest : List UInt8} {n : UInt32} (h : u32 bs = some (n, rest)) :
    n.toNat < 2 ^ 32 ∧ bs = encode 4 n.toNat ++ rest := ⟨n.toNat_lt, u32_eq_some.mp h⟩

theorem vec_eq_some {bs xs rest : List UInt8} (h : vec bs = some (xs, rest)) :
    xs.length < 2 ^ 32 ∧ bs = (encode 4 xs.length ++ xs) ++ rest := by
  obtain ⟨n, mid, hn, hxs⟩ := bind_eq_some.mp h
  obtain ⟨hlength, rfl⟩ := bytes_eq_some.mp hxs
  obtain ⟨hlt, hbs⟩ := u32_length_eq_some hn
  rw [hlength, List.append_assoc]
  exact ⟨hlt, hbs⟩

theorem canonical_vec :
    Canonical vec (fun xs => xs.length < 2 ^ 32) fun xs => encode 4 xs.length ++ xs where
  reads _ h := reads_vec h
  accepts _ _ _ h := vec_eq_some h

theorem string_eq_some {bs rest : List UInt8} {s : String} (h : string bs = some (s, rest)) :
    ∃ xs : List UInt8, xs.toByteArray = s.toByteArray ∧ xs.length < 2 ^ 32 ∧
      bs = (encode 4 xs.length ++ xs) ++ rest := by
  obtain ⟨xs, mid, hxs, hs⟩ := bind_eq_some.mp h
  obtain ⟨htext, rfl⟩ := lift_eq_some.mp hs
  obtain ⟨hlt, hbs⟩ := vec_eq_some hxs
  unfold String.fromUTF8? at htext
  split at htext
  · cases htext
    exact ⟨xs, rfl, hlt, hbs⟩
  · cases htext

theorem many_eq_some {p : Reader α} {enc : α → List UInt8}
    (hp : ∀ bs x rest, p bs = some (x, rest) → bs = enc x ++ rest) {n : ℕ} {bs rest : List UInt8}
    {xs : List α} (h : many p n bs = some (xs, rest)) :
    xs.length = n ∧ bs = (xs.map enc).flatten ++ rest := by
  induction n generalizing bs xs with
  | zero =>
    obtain ⟨rfl, rfl⟩ := pure_eq_some.mp h
    exact ⟨rfl, rfl⟩
  | succ n ih =>
    obtain ⟨x, mid, hx, htail⟩ := bind_eq_some.mp h
    obtain ⟨ys, mid', hys, hpure⟩ := bind_eq_some.mp htail
    obtain ⟨rfl, rfl⟩ := pure_eq_some.mp hpure
    obtain ⟨rfl, rfl⟩ := ih hys
    obtain rfl := hp _ _ _ hx
    refine ⟨rfl, ?_⟩
    rw [List.map_cons, List.flatten_cons, List.append_assoc]

theorem vector_eq_some {p : Reader α} {enc : α → List UInt8}
    (hp : ∀ bs x rest, p bs = some (x, rest) → bs = enc x ++ rest) {bs rest : List UInt8}
    {xs : List α} (h : vector p bs = some (xs, rest)) :
    xs.length < 2 ^ 32 ∧ bs = (encode 4 xs.length ++ (xs.map enc).flatten) ++ rest := by
  obtain ⟨n, mid, hn, hxs⟩ := bind_eq_some.mp h
  obtain ⟨hlength, rfl⟩ := many_eq_some hp hxs
  obtain ⟨hlt, hbs⟩ := u32_length_eq_some hn
  rw [hlength, List.append_assoc]
  exact ⟨hlt, hbs⟩

end Borsh
