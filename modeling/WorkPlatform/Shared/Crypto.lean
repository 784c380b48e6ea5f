import WorkPlatform.Machinery.Base64

/-!
# Shared/Crypto — texts that are kept encrypted

    encrypt   s ──utf8──▸ bytes ──cipher key iv──▸ (ciphertext, tag) ──▸ v1:iv:ciphertext:tag
    decrypt   …:iv:ciphertext:tag ──decipher key──▸ bytes ──utf8──▸ s, or throws

The three fields are base64, which has no colon, so the text splits where it was joined.  What is
encrypted is decrypted to what it was; a text that is not of four parts throws, and so does one
whose parts the cipher does not authenticate (`decrypt_exact`).

The decipher is made without an `authTagLength`, so it takes a tag of any length that GCM has, and a
triple is authentic if its tag is so much of the cipher's own.
-/

namespace WorkPlatform.Shared

open Machinery

/-! ## The code -/

/-- Bytes, so many of them. -/
abbrev Bytes (n : ℕ) := { bytes : List UInt8 // bytes.length = n }

/-- What the functions use of Node: AES-256-GCM by key and initialisation vector, with a tag of 16
bytes, and its inverse, `none` where a call throws; base64 decoding, of any text; and UTF-8 decoding
of bytes that are not UTF-8. -/
structure CryptoLib where
  cipher : Bytes 32 → List UInt8 → List UInt8 → List UInt8 × List UInt8
  decipher : Bytes 32 → List UInt8 → List UInt8 → List UInt8 → Option (List UInt8)
  decodeBase64 : List Char → List UInt8
  replaceInvalid : List UInt8 → String

/-- How many bytes a tag of GCM may have. -/
def tagLengths : List ℕ := [4, 8, 12, 13, 14, 15, 16]

namespace CryptoLib

variable (lib : CryptoLib)

/-- The triple is what the cipher makes of some plaintext, with as much of the tag as there is. -/
def Authentic (key : Bytes 32) (iv ciphertext tag : List UInt8) : Prop :=
  tag.length ∈ tagLengths ∧ ∃ plaintext,
    (lib.cipher key iv plaintext).1 = ciphertext ∧ tag <+: (lib.cipher key iv plaintext).2

/-- What is enciphered is deciphered, and base64 decoding inverts encoding. -/
structure Opens : Prop where
  decipher_cipher : ∀ (key : Bytes 32) (iv : Bytes 16) plaintext,
    lib.decipher key iv (lib.cipher key iv plaintext).1 (lib.cipher key iv plaintext).2
      = some plaintext
  decode_encode : ∀ bytes, lib.decodeBase64 (Base64.encode bytes) = bytes

/-- Only what is authentic is deciphered. -/
def Refuses : Prop := ∀ key iv ciphertext tag plaintext,
  lib.decipher key iv ciphertext tag = some plaintext → lib.Authentic key iv ciphertext tag

/-- `toString('utf8')`. -/
def decodeUtf8 (bytes : List UInt8) : String :=
  (String.fromUTF8? ⟨bytes.toArray⟩).getD (lib.replaceInvalid bytes)

end CryptoLib

/-- The bytes of a text. -/
def utf8 (s : String) : List UInt8 := s.toUTF8.data.toList

/-- `Invalid ciphertext format`, or what the decipher throws. -/
inductive CryptoError
  | invalidFormat | unauthentic
  deriving DecidableEq

/-- `text.split(':')`. -/
def parts (text : String) : List (List Char) := text.toList.splitOn ':'

section

variable (lib : CryptoLib) (key : Bytes 32)

/-- `v{N}:{b64_iv}:{b64_ciphertext}:{b64_authTag}`; `iv` are the random bytes. -/
def encrypt (iv : Bytes 16) (plaintext : String) : String :=
  let sealed := lib.cipher key iv (utf8 plaintext)
  String.ofList ("v1".toList ++ ':' :: (Base64.encode iv.1 ++
    ':' :: (Base64.encode sealed.1 ++ ':' :: Base64.encode sealed.2)))

/-- The version is not looked at. -/
def decrypt (ciphertext : String) : Except CryptoError String :=
  match parts ciphertext with
  | [_, ivB64, encB64, tagB64] =>
    match lib.decipher key (lib.decodeBase64 ivB64) (lib.decodeBase64 encB64)
      (lib.decodeBase64 tagB64) with
    | none => .error .unauthentic
    | some bytes => .ok (lib.decodeUtf8 bytes)
  | _ => .error .invalidFormat

end

/-! ## The fields -/

section

variable {lib : CryptoLib} {key : Bytes 32}

theorem decodeUtf8_utf8 (s : String) : lib.decodeUtf8 (utf8 s) = s := by
  have hvalid : String.fromUTF8? s.toByteArray = some s := by
    rw [String.fromUTF8?, dif_pos s.isValidUTF8]
    rfl
  rw [CryptoLib.decodeUtf8, utf8, Array.toArray_toList, String.toUTF8_eq_toByteArray, hvalid,
    Option.getD_some]

/-- **An encrypted text has its four parts.** -/
theorem parts_encrypt (iv : Bytes 16) (s : String) : parts (encrypt lib key iv s) =
    ["v1".toList, Base64.encode iv.1, Base64.encode (lib.cipher key iv (utf8 s)).1,
      Base64.encode (lib.cipher key iv (utf8 s)).2] := by
  have hversion : ':' ∉ "v1".toList := by decide
  have hlast := List.splitOn_eq_singleton
    (Base64.colon_notMem_encode (lib.cipher key iv (utf8 s)).2)
  rw [parts, encrypt, String.toList_ofList, List.splitOn_append_cons_self_of_not_mem hversion,
    List.splitOn_append_cons_self_of_not_mem (Base64.colon_notMem_encode _),
    List.splitOn_append_cons_self_of_not_mem (Base64.colon_notMem_encode _), hlast]

theorem decrypt_of_length {text : String} (h : (parts text).length ≠ 4) :
    decrypt lib key text = .error .invalidFormat := by
  rw [decrypt]
  split
  · rename_i hparts
    rw [hparts] at h
    exact absurd rfl h
  · rfl

/-- What is of four parts, but not authentic, is refused. -/
theorem decrypt_of_parts (hrefuses : lib.Refuses) {text : String}
    {version iv ciphertext tag : List Char} (hparts : parts text = [version, iv, ciphertext, tag])
    (h : ¬ lib.Authentic key (lib.decodeBase64 iv) (lib.decodeBase64 ciphertext)
      (lib.decodeBase64 tag)) :
    decrypt lib key text = .error .unauthentic := by
  have hnone : lib.decipher key (lib.decodeBase64 iv) (lib.decodeBase64 ciphertext)
      (lib.decodeBase64 tag) = none :=
    Option.eq_none_iff_forall_ne_some.mpr fun plaintext hsome => h (hrefuses _ _ _ _ _ hsome)
  simp only [decrypt, hparts, hnone]

/-- What is encrypted is decrypted. -/
theorem decrypt_encrypt (hopens : lib.Opens) (iv : Bytes 16) (s : String) :
    decrypt lib key (encrypt lib key iv s) = .ok s := by
  simp only [decrypt, parts_encrypt, hopens.decode_encode, hopens.decipher_cipher, decodeUtf8_utf8]

end

/-- **The round trip**: what is encrypted is decrypted, and has four parts; every other text throws,
of four parts or not, unless its triple is authentic. -/
theorem decrypt_exact (lib : CryptoLib) (hopens : lib.Opens) (hrefuses : lib.Refuses)
    (key : Bytes 32) :
    (∀ iv s, decrypt lib key (encrypt lib key iv s) = .ok s ∧
      (parts (encrypt lib key iv s)).length = 4) ∧
    ∀ text, ((parts text).length ≠ 4 ∨ ∃ version iv ciphertext tag,
      parts text = [version, iv, ciphertext, tag] ∧
        ¬ lib.Authentic key (lib.decodeBase64 iv) (lib.decodeBase64 ciphertext)
          (lib.decodeBase64 tag)) →
      ∃ e, decrypt lib key text = .error e := by
  refine ⟨fun iv s => ⟨decrypt_encrypt hopens iv s, ?_⟩, ?_⟩
  · rw [parts_encrypt]
    rfl
  · rintro text (hlength | ⟨version, iv, ciphertext, tag, hparts, hforged⟩)
    · exact ⟨_, decrypt_of_length hlength⟩
    · exact ⟨_, decrypt_of_parts hrefuses hparts hforged⟩

/-! ## One text -/

/-- Bytes that are all zero. -/
def zeros (n : ℕ) : Bytes n := ⟨.replicate n 0, List.length_replicate⟩

/-- `a:b`, under the key and the vector of zeros. -/
def demoSealed : List UInt8 × List UInt8 :=
  ([190, 105, 162], [152, 149, 230, 158, 22, 202, 98, 49, 122, 109, 75, 70, 18, 184, 46, 135])

/-- The key, the vector and the plaintext of `demoSealed`. -/
def IsDemo (key : Bytes 32) (iv plaintext : List UInt8) : Prop :=
  key = zeros 32 ∧ iv = (zeros 16).1 ∧ plaintext = [97, 58, 98]

instance (key : Bytes 32) (iv plaintext : List UInt8) : Decidable (IsDemo key iv plaintext) :=
  inferInstanceAs (Decidable (_ ∧ _ ∧ _))

/-- AES-256-GCM on that text, with tags of any length; any other plaintext is its own ciphertext,
with a tag of zeros. -/
def demoCrypto : CryptoLib where
  cipher key iv plaintext :=
    if IsDemo key iv plaintext then demoSealed else (plaintext, (zeros 16).1)
  decipher key iv ciphertext tag :=
    if IsDemo key iv [97, 58, 98] ∧ ciphertext = demoSealed.1 ∧ tag <+: demoSealed.2
        ∧ tag.length ∈ tagLengths then some [97, 58, 98]
    else if tag = (zeros 16).1 ∧ ¬ IsDemo key iv ciphertext then some ciphertext
    else none
  decodeBase64 := Base64.decode
  replaceInvalid := fun _ => ""

/-- The demo cipher opens what it sealed. -/
theorem demoCrypto_opens : demoCrypto.Opens := by
  refine ⟨fun key iv plaintext => ?_, Base64.decode_encode⟩
  simp only [demoCrypto]
  by_cases hdemo : IsDemo key iv plaintext
  · have hsealed : (if IsDemo key iv plaintext then demoSealed else (plaintext, (zeros 16).1))
        = demoSealed := if_pos hdemo
    obtain ⟨hkey, hiv, rfl⟩ := hdemo
    rw [hsealed, if_pos ⟨⟨hkey, hiv, rfl⟩, rfl, List.prefix_refl _, by decide⟩]
  · have hzeros : ¬ (zeros 16).1 <+: demoSealed.2 := by decide
    rw [if_neg hdemo, if_neg fun h => hzeros h.2.2.1, if_pos ⟨rfl, hdemo⟩]

/-- The demo cipher accepts exactly what it sealed. -/
theorem demoCrypto_refuses : demoCrypto.Refuses := by
  intro key iv ciphertext tag plaintext h
  simp only [demoCrypto] at h
  simp only [CryptoLib.Authentic, demoCrypto]
  split_ifs at h with hdemo hother
  · obtain ⟨hdemo, hciphertext, htag, hlength⟩ := hdemo
    refine ⟨hlength, [97, 58, 98], ?_⟩
    rw [if_pos hdemo]
    exact ⟨hciphertext.symm, htag⟩
  · obtain ⟨rfl, hother⟩ := hother
    refine ⟨by decide, ciphertext, ?_⟩
    rw [if_neg hother]
    exact ⟨rfl, List.prefix_refl _⟩

/-- `a:b` comes back, and a text of three parts does not. -/
theorem decrypt_exact_demo :
    encrypt demoCrypto (zeros 32) (zeros 16) "a:b" =
        "v1:AAAAAAAAAAAAAAAAAAAAAA==:vmmi:mJXmnhbKYjF6bUtGErguhw==" ∧
      decrypt demoCrypto (zeros 32) "v1:AAAAAAAAAAAAAAAAAAAAAA==:vmmi:mJXmnhbKYjF6bUtGErguhw==" =
        .ok "a:b" ∧
      ∃ e, decrypt demoCrypto (zeros 32) "v1:AAAAAAAAAAAAAAAAAAAAAA==:vmmi" = .error e := by
  have hencrypt : encrypt demoCrypto (zeros 32) (zeros 16) "a:b" =
      "v1:AAAAAAAAAAAAAAAAAAAAAA==:vmmi:mJXmnhbKYjF6bUtGErguhw==" := by
    decide
  obtain ⟨hround, hthrow⟩ :=
    decrypt_exact demoCrypto demoCrypto_opens demoCrypto_refuses (zeros 32)
  exact ⟨hencrypt, hencrypt ▸ (hround (zeros 16) "a:b").1, hthrow _ (Or.inl (by decide))⟩

end WorkPlatform.Shared
