import WorkPlatform.Payment.Calls

/-!
# Payment/Signature — the bytes a webhook is signed over

    app.use(express.json({ limit: '1mb' }))
      ▸ router.post('/razorpay', express.raw({ type: 'application/json' }), …)
        ▸ verifyWebhookSignature(req.body, signature)

The signature is over the bytes of the body.  The parser of the application comes first, and the
parser of the route leaves alone what is parsed already; so what comes to the check is a value and
no buffer, `Hmac.update` throws, and the check says no.  The two parsers and `crypto` are packages:
what they do is a parameter, and what is known of them is `Express.Lawful`.

By itself the check is right: it accepts a buffer exactly under its digest, up to how hex is
written (`verifyWebhookSignature_iff`).  Behind the two parsers it accepts nothing
(`webhook_never_proceeds`), so the route answers as it should exactly to requests that are not
signed (`proceeds_iff_signed_iff`).
-/

namespace WorkPlatform.Payment

/-! ## Hex -/

/-- A digit of `digest('hex')`. -/
def hexDigit (n : ℕ) : Char := Char.ofNat (if n < 10 then 48 + n else 87 + n)

/-- A digit `Buffer.from(…, 'hex')` reads, of either case. -/
def hexValue (c : Char) : Option ℕ :=
  if 48 ≤ c.toNat ∧ c.toNat ≤ 57 then some (c.toNat - 48)
  else if 97 ≤ c.toNat ∧ c.toNat ≤ 102 then some (c.toNat - 87)
  else if 65 ≤ c.toNat ∧ c.toNat ≤ 70 then some (c.toNat - 55)
  else none

/-- `digest('hex')`. -/
def toHex (bytes : List UInt8) : List Char :=
  bytes.flatMap fun b => [hexDigit (b.toNat / 16), hexDigit (b.toNat % 16)]

/-- `Buffer.from(…, 'hex')`: it stops at the first pair that is no byte. -/
def fromHex : List Char → List UInt8
  | c₁ :: c₂ :: cs =>
    match hexValue c₁, hexValue c₂ with
    | some high, some low => UInt8.ofNat (16 * high + low) :: fromHex cs
    | _, _ => []
  | _ => []

theorem hexValue_hexDigit : ∀ n < 16, hexValue (hexDigit n) = some n := by decide

/-- **Round trip.** -/
theorem fromHex_toHex : ∀ bytes : List UInt8, fromHex (toHex bytes) = bytes
  | [] => rfl
  | b :: bytes => by
      have hb := b.toNat_lt
      have hhigh := hexValue_hexDigit (b.toNat / 16) (by omega)
      have hlow := hexValue_hexDigit (b.toNat % 16) (Nat.mod_lt _ (by decide))
      have hbyte : UInt8.ofNat (16 * (b.toNat / 16) + b.toNat % 16) = b := by
        rw [Nat.div_add_mod]
        exact UInt8.ofNat_toNat
      rw [toHex, List.flatMap_cons, List.cons_append, List.cons_append, List.nil_append, fromHex,
        hhigh, hlow]
      dsimp only
      rw [hbyte]
      exact congrArg (List.cons b) (fromHex_toHex bytes)

/-! ## The two parsers -/

section Pipeline

variable {J : Type}

/-- A request, less what neither parser looks at: whether its type is `application/json`, the bytes
of its body, and its header `x-razorpay-signature`. -/
structure Request where
  isJson : Bool
  bytes : List UInt8
  signature : Option String

/-- `req.body`. -/
inductive Body (J : Type)
  | buffer (bytes : List UInt8)
  | json (value : J)

/-- `req.body`, and `req._body`, which says that it is parsed. -/
structure Parsed (J : Type) where
  parsed : Bool
  body : Body J

/-- What a parser leaves alone: what is parsed, what has no body and what is no JSON. -/
def Parsed.isLeft (st : Parsed J) (req : Request) : Prop :=
  st.parsed = true ∨ req.bytes = [] ∨ ¬ req.isJson = true

instance (st : Parsed J) (req : Request) : Decidable (st.isLeft req) :=
  inferInstanceAs (Decidable (_ ∨ _ ∨ _))

/-- What body-parser and `crypto` do: `express.json({ limit: '1mb' })` and
`express.raw({ type: 'application/json' })`, with what they go on with or the status they answer;
what `update` takes, or nothing where it throws; and HMAC-SHA256 under the webhook secret. -/
structure Express (J : Type) where
  emptyObject : J
  json : Request → Parsed J → Except ℕ (Parsed J)
  raw : Request → Parsed J → Except ℕ (Parsed J)
  update : Body J → Option (List UInt8)
  hmac : List UInt8 → List UInt8

/-- An already parsed body is left alone, and what `express.json` parses is a value and no buffer;
`update` takes a buffer as it is, and throws on a value. -/
structure Express.Lawful (E : Express J) : Prop where
  json_left : ∀ req st, st.isLeft req → E.json req st = .ok st
  json_parsed : ∀ req st st', ¬ st.isLeft req → E.json req st = .ok st' →
    st'.parsed = true ∧ ∃ v, st'.body = .json v
  raw_left : ∀ req st, st.isLeft req → E.raw req st = .ok st
  update_buffer : ∀ bytes, E.update (.buffer bytes) = some bytes
  update_json : ∀ v, E.update (.json v) = none

/-! ## The check -/

/-- `verifyWebhookSignature`; where `update` throws, the answer is false. -/
def verifyWebhookSignature (E : Express J) (rawBody : Body J) (signature : String) : Bool :=
  match E.update rawBody with
  | none => false
  | some bytes =>
    if (fromHex (toHex (E.hmac bytes))).length ≠ (fromHex signature.toList).length then false
    else fromHex (toHex (E.hmac bytes)) = fromHex signature.toList

/-- The route up to its handler; a header that is missing or empty is refused. -/
def razorpayRoute (E : Express J) (signature : Option String) (body : Body J) : Except ℕ Unit :=
  match truthy signature with
  | none => .error 400
  | some signature => if verifyWebhookSignature E body signature then .ok () else .error 400

/-- **The pipeline**: `ok` where the handler proceeds, else the status of the answer. -/
def pipeline (E : Express J) (req : Request) : Except ℕ Unit := do
  let st ← E.json req ⟨false, .json E.emptyObject⟩
  let st ← E.raw req st
  razorpayRoute E req.signature st.body

/-- The header is the hex digest of the bytes. -/
def Express.Signed (E : Express J) (req : Request) : Prop :=
  req.signature = some (String.ofList (toHex (E.hmac req.bytes)))

variable {E : Express J} {req : Request}

/-- **The check by itself.** -/
theorem verifyWebhookSignature_iff (hE : E.Lawful) {bytes : List UInt8} {signature : String} :
    verifyWebhookSignature E (.buffer bytes) signature = true
      ↔ fromHex signature.toList = E.hmac bytes := by
  rw [verifyWebhookSignature, hE.update_buffer]
  dsimp only
  rw [fromHex_toHex]
  constructor
  · intro h
    split at h
    · cases h
    · exact (of_decide_eq_true h).symm
  · intro h
    rw [h, if_neg (not_not_intro rfl)]
    exact decide_eq_true rfl

/-- What is not a buffer does not become one where it is parsed, or where there is nothing to
parse. -/
theorem body_json {st : Parsed J} (hE : E.Lawful)
    (h : E.json req ⟨false, .json E.emptyObject⟩ = .ok st) :
    (∃ v, st.body = .json v) ∧ st.isLeft req := by
  by_cases hleft : Parsed.isLeft ⟨false, .json E.emptyObject⟩ req
  · rw [hE.json_left _ _ hleft] at h
    cases h
    exact ⟨⟨_, rfl⟩, hleft⟩
  · obtain ⟨hparsed, hvalue⟩ := hE.json_parsed _ _ _ hleft h
    exact ⟨hvalue, Or.inl hparsed⟩

theorem razorpayRoute_json (hE : E.Lawful) (signature : Option String) (v : J) :
    razorpayRoute E signature (.json v) = .error 400 := by
  unfold razorpayRoute verifyWebhookSignature
  rw [hE.update_json]
  split <;> rfl

/-- **No webhook proceeds**, whatever its body and its signature. -/
theorem webhook_never_proceeds (hE : E.Lawful) (req : Request) :
    ∃ status, pipeline E req = .error status := by
  unfold pipeline
  cases hjson : E.json req ⟨false, .json E.emptyObject⟩ with
  | error status => exact ⟨status, rfl⟩
  | ok st =>
    obtain ⟨⟨v, hv⟩, hleft⟩ := body_json hE hjson
    refine ⟨400, ?_⟩
    change (E.raw req st >>= fun st => razorpayRoute E req.signature st.body) = _
    rw [hE.raw_left _ _ hleft]
    change razorpayRoute E req.signature st.body = _
    rw [hv, razorpayRoute_json hE]

/-- **The pipeline is right about exactly the requests that are not signed.** -/
theorem proceeds_iff_signed_iff (hE : E.Lawful) (req : Request) :
    (pipeline E req = .ok () ↔ E.Signed req) ↔ ¬ E.Signed req := by
  obtain ⟨status, hrefused⟩ := webhook_never_proceeds hE req
  rw [hrefused]
  constructor
  · intro h hsigned
    cases h.mpr hsigned
  · intro hunsigned
    exact iff_of_false nofun hunsigned

end Pipeline

/-! ## A signed request -/

section Demo

variable {J : Type}

/-- A parser of body-parser; `read` is what it makes of the bytes, or 400. -/
def bodyParser (limit : ℕ) (read : List UInt8 → Option (Body J)) (req : Request) (st : Parsed J) :
    Except ℕ (Parsed J) :=
  if st.isLeft req then .ok st
  else if limit < req.bytes.length then .error 413
  else
    match read req.bytes with
    | some body => .ok ⟨true, body⟩
    | none => .error 400

/-- The first character that is no white space of JSON. -/
def firstChar (text : String) : Option Char :=
  text.toList.find? fun c => c ≠ ' ' ∧ c ≠ '\t' ∧ c ≠ '\n' ∧ c ≠ '\r'

/-- The strict parser, which reads objects and arrays only, of which it knows the empty object. -/
def parseEmpty (text : String) : Option Unit :=
  if text = "" then some ()
  else if firstChar text = some '\x7b' ∨ firstChar text = some '[' then
    if text = "\x7b\x7d" then some () else none
  else none

/-- The HMAC-SHA256 of an empty object under the secret `whsec`. -/
def demoMac : List UInt8 :=
  [174, 99, 65, 234, 127, 64, 164, 53, 219, 87, 217, 3, 208, 44, 186, 25, 8, 94, 251, 138, 145, 63,
    140, 251, 216, 207, 243, 215, 223, 12, 122, 45]

/-- What the JSON parser makes of bytes. -/
def readJson (bytes : List UInt8) : Option (Body Unit) :=
  (parseEmpty (String.ofList (bytes.map fun b => Char.ofNat b.toNat))).map .json

/-- The two parsers with their limits of 1mb and 100kb. -/
def demoExpress : Express Unit where
  emptyObject := ()
  json := bodyParser 1048576 readJson
  raw := bodyParser 102400 fun bytes => some (.buffer bytes)
  update body :=
    match body with
    | .buffer bytes => some bytes
    | .json _ => none
  hmac _ := demoMac

/-- The demo parser meets what is assumed of the package. -/
theorem lawful_demoExpress : demoExpress.Lawful where
  json_left _ _ h := if_pos h
  json_parsed req st st' hleft h := by
    change bodyParser 1048576 readJson req st = _ at h
    unfold bodyParser at h
    rw [if_neg hleft] at h
    split at h
    · cases h
    · split at h
      · rename_i body hread
        cases h
        obtain ⟨v, -, rfl⟩ := Option.map_eq_some_iff.mp hread
        exact ⟨rfl, v, rfl⟩
      · cases h
  raw_left _ _ h := if_pos h
  update_buffer _ := rfl
  update_json _ := rfl

/-- An empty object, signed. -/
def signedRequest : Request where
  isJson := true
  bytes := [0x7b, 0x7d]
  signature := some (String.ofList (toHex demoMac))

/-- **A signed request is refused**: its bytes are JSON and its header is their digest. -/
theorem signed_request_refused :
    (demoExpress.json signedRequest ⟨false, .json ()⟩).isOk = true
      ∧ signedRequest.signature =
        some "ae6341ea7f40a435db57d903d02cba19085efb8a913f8cfbd8cff3d7df0c7a2d"
      ∧ verifyWebhookSignature demoExpress (.buffer signedRequest.bytes)
        (String.ofList (toHex demoMac)) = true
      ∧ demoExpress.Signed signedRequest
      ∧ pipeline demoExpress signedRequest = .error 400 := by
  refine ⟨by decide, by decide, ?_, rfl, rfl⟩
  rw [verifyWebhookSignature_iff lawful_demoExpress, String.toList_ofList, fromHex_toHex]
  rfl

/-- The same bytes with another header are refused as they should be. -/
theorem proceeds_iff_signed_iff_unsigned :
    demoExpress.Lawful ∧ ¬ demoExpress.Signed { signedRequest with signature := some "ae" }
      ∧ (pipeline demoExpress { signedRequest with signature := some "ae" } = .ok ()
        ↔ demoExpress.Signed { signedRequest with signature := some "ae" }) := by
  have hunsigned : ¬ demoExpress.Signed { signedRequest with signature := some "ae" } := by
    unfold Express.Signed
    decide
  exact ⟨lawful_demoExpress, hunsigned,
    (proceeds_iff_signed_iff lawful_demoExpress _).mpr hunsigned⟩

end Demo

end WorkPlatform.Payment
