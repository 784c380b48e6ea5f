import WorkPlatform.Machinery.Url
import WorkPlatform.Webhook.Delivery

/-!
# Webhook/TargetUrl — the URL that a delivery requests, as it is put together

    https://hooks.partner.com:8443/hook?v=2   ──new URL──▸  https:   hooks.partner.com   8443   /hook   ?v=2
                                                              │             │                    │       │
                                                              │        DNS ▸ address             │       │
    https://93.184.216.34/hook?v=2            ◂───────────────┴─────────────┴────────────────────┴───────┘

The port is in none of the pieces, and an address with colons is put in without brackets.
-/

namespace WorkPlatform.Webhook

open Machinery Machinery.Url

/-! ## Addresses -/

/-- Digits and dots. -/
def IsIPv4 (text : List Char) : Prop := text ≠ [] ∧ ∀ c ∈ text, c.isDigit = true ∨ c = '.'

/-- Digits of base 16 and colons, two of these at least; dots where the last 32 bits are an IPv4
address. -/
def IsIPv6 (text : List Char) : Prop :=
  2 ≤ text.count ':' ∧
    ∀ c ∈ text, c.isDigit = true ∨ c = '.' ∨ c = ':' ∨ c ∈ ['a', 'b', 'c', 'd', 'e', 'f']

instance : DecidablePred IsIPv4 := fun text =>
  @instDecidableAnd _ _ inferInstance (List.decidableBAll _ text)

/-- What `dns.promises.lookup` answers with. -/
inductive Address
  | v4 (address : {text : List Char // IsIPv4 text})
  | v6 (address : {text : List Char // IsIPv6 text})
  deriving DecidableEq

def Address.text : Address → List Char
  | .v4 address => address.1
  | .v6 address => address.1

def Address.isIPv6 : Address → Bool
  | .v4 _ => false
  | .v6 _ => true

/-! ## URLs -/

/-- `webhookUrl.hostname`: an IPv6 address is in brackets there. -/
def Url.hostname (url : Url Address) : List Char :=
  match url.host with
  | .name hostname => hostname.toList
  | .ip (.v4 address) => address.1
  | .ip (.v6 address) => '[' :: address.1 ++ [']']

/-- The parts of the URL as its text has them; `protocol` ends with the colon. -/
def Url.parts (url : Url Address) : Parts where
  scheme := url.protocol.toList.dropLast
  host := url.hostname
  port := url.port.toList
  path := url.pathname.toList
  search := url.search.toList

/-- `` `${webhookUrl.protocol}//${resolved.address}${webhookUrl.pathname}${webhookUrl.search}`
``. -/
def targetText (url : Url Address) (address : Address) : List Char :=
  url.protocol.toList ++
    '/' :: '/' :: (address.text ++ (url.pathname.toList ++ url.search.toList))

/-- `'Host': webhookUrl.hostname`. -/
def hostHeader (url : Url Address) : List Char := url.hostname

/-- The pieces of an `https:` URL. -/
structure Url.WellFormed (url : Url Address) : Prop where
  host : IsHost url.hostname
  port : url.port.toList.all Char.isDigit = true
  path : IsPath url.pathname.toList
  search : IsSearch url.search.toList

/-- What `new URL` promises. -/
def Lib.WellFormed (lib : Lib Address) : Prop :=
  ∀ text, ∀ url ∈ lib.parseUrl text, url.protocol = "https:" → url.WellFormed

/-! ## Address and host -/

/-- **The request goes to the address, under the name of the host**: the text is read as the URL
with the address in it, and the header as its host name and port. -/
structure Requested (url : Url Address) (address : Address) : Prop where
  target : read (targetText url address) = some { url with host := .ip address }.parts
  hostHeader : readAuthority (hostHeader url) = some (url.hostname, url.port.toList)

/-! ## The text that is put together -/

section

variable {url : Url Address} {address : Address}

/-- An IPv4 address is a name. -/
theorem isName_of_isIPv4 {text : List Char} (h : IsIPv4 text) : IsName text := by
  refine ⟨h.1, ?_, ?_⟩
  · intro hhead
    rcases h.2 '[' (List.mem_of_head? hhead) with hdigit | hdot
    · exact absurd hdigit (by decide)
    · exact absurd hdot (by decide)
  · intro c hc
    rcases h.2 c hc with hdigit | rfl
    · exact ⟨fun hcolon => absurd (hcolon ▸ hdigit) (by decide), isDelim_of_isDigit hdigit⟩
    · exact ⟨by decide, rfl⟩

theorem isDelim_of_isIPv6 {text : List Char} (h : IsIPv6 text) : ∀ c ∈ text, isDelim c = false := by
  have hletters : (['a', 'b', 'c', 'd', 'e', 'f'].all fun c => !isDelim c) = true := rfl
  intro c hc
  rcases h.2 c hc with hdigit | rfl | rfl | hletter
  · exact isDelim_of_isDigit hdigit
  · rfl
  · rfl
  · exact (Bool.not_eq_true' _).mp (List.all_eq_true.mp hletters c hletter)

/-- **Without its brackets an IPv6 address is no host.** -/
theorem readAuthority_of_isIPv6 {text : List Char} (h : IsIPv6 text) : readAuthority text = none := by
  refine readAuthority_colons ?_ h.1
  intro hhead
  exact absurd (h.2 '[' (List.mem_of_head? hhead)) (by decide)

/-- **What the text says**: nothing, or the URL without its port. -/
theorem read_targetText (hprotocol : url.protocol = "https:") (hurl : url.WellFormed)
    (address : Address) : read (targetText url address) =
      if address.isIPv6 then none else some (targetUrl url address).parts := by
  have hscheme : url.protocol.toList = url.protocol.toList.dropLast ++ [':'] := by
    rw [hprotocol]
    rfl
  have hcolon : ':' ∉ url.protocol.toList.dropLast := by
    rw [hprotocol]
    decide
  rw [targetText, hscheme, List.append_assoc, List.singleton_append]
  cases address with
  | v4 address =>
    have hvalid : (targetUrl url (.v4 address)).parts.Valid :=
      ⟨hcolon, Or.inl (isName_of_isIPv4 address.2), rfl, hurl.path, hurl.search⟩
    have hport : (targetUrl url (.v4 address)).parts.port = [] := rfl
    have hread := read_write hvalid
    rw [Parts.write, Parts.authority, if_pos hport, List.append_nil] at hread
    exact hread
  | v6 address =>
    have hread := read_append hcolon (isDelim_of_isIPv6 address.2) hurl.path hurl.search
    rw [readAuthority_of_isIPv6 address.2] at hread
    exact hread

theorem readAuthority_hostHeader (hurl : url.WellFormed) :
    readAuthority (hostHeader url) = some (url.hostname, []) := by
  have hread : readAuthority (url.hostname ++ if [] = [] then [] else [':']) =
      some (url.hostname, []) := readAuthority_host hurl.host rfl
  rwa [if_pos rfl, List.append_nil] at hread

/-- **The branch of `DeliveryPc.next`**: where the URL is none, nothing is sent. -/
theorem next_post {lib : Lib Address} (hlib : lib.isIPv6 = Address.isIPv6)
    (hprotocol : url.protocol = "https:") (hurl : url.WellFormed) (s : Store Address)
    (job : WebhookDeliveryJobData) (d : Draw Address) :
    (DeliveryPc.post job url address).next lib s d =
      (read (targetText url address)).elim (some (s, .caught job none)) fun _ =>
        some ((s.attempt job.id).contact address, .respond job lib.maxRedirects d.response) := by
  rw [read_targetText hprotocol hurl, DeliveryPc.next, hlib]
  cases address.isIPv6 with
  | true => rfl
  | false => rfl

/-- A URL that the registration accepts is one of `https:`. -/
theorem protocol_of_accepted {lib : Lib Address} {text : String} {answer : Option Address}
    (haccepted : isPrivateOrBlockedUrl lib text answer = false) (hurl : lib.parseUrl text = some url) :
    url.protocol = "https:" := by
  by_contra hprotocol
  rw [isPrivateOrBlockedUrl, hurl] at haccepted
  dsimp only at haccepted
  rw [if_pos hprotocol] at haccepted
  cases haccepted

/-- **The URL that is requested is the registered one** where that has no port and the address is of
IPv4, and nowhere else. -/
theorem requested_iff {lib : Lib Address} (hlib : lib.WellFormed) {text : String}
    {answer : Option Address} (haccepted : isPrivateOrBlockedUrl lib text answer = false)
    (hurl : lib.parseUrl text = some url) :
    Requested url address ↔ url.port = "" ∧ address.isIPv6 = false := by
  have hprotocol := protocol_of_accepted haccepted hurl
  have hwell := hlib text url hurl hprotocol
  have hread := read_targetText hprotocol hwell address
  constructor
  · rintro ⟨htarget, hhost⟩
    rw [readAuthority_hostHeader hwell] at hhost
    have hport : url.port.toList = [] := (congrArg Prod.snd (Option.some.inj hhost)).symm
    refine ⟨String.toList_eq_nil_iff.mp hport, ?_⟩
    by_contra hv6
    rw [hread, if_pos (Bool.eq_true_of_not_eq_false hv6)] at htarget
    cases htarget
  · rintro ⟨hport, hv4⟩
    have htarget : targetUrl url address = { url with host := .ip address } := by
      rw [targetUrl, hport]
    refine ⟨?_, ?_⟩
    · rw [hread, if_neg (ne_true_of_eq_false hv4), htarget]
    · rw [readAuthority_hostHeader hwell, hport]
      rfl

end

/-! ## A partner's webhook -/

def partnerUrl (port : String) : Url Address :=
  ⟨"https:", .name "hooks.partner.com", port, "/hook", "?v=2"⟩

theorem isIPv4_partner : IsIPv4 "93.184.216.34".toList := by decide

def partnerAddress : Address := .v4 ⟨"93.184.216.34".toList, isIPv4_partner⟩

/-- A parser that knows the URL of a partner, with and without a port. -/
def partnerLib : Lib Address where
  parseUrl text :=
    if text = "https://hooks.partner.com/hook?v=2" then some (partnerUrl "")
    else if text = "https://hooks.partner.com:8443/hook?v=2" then some (partnerUrl "8443")
    else none
  decryptSecret := some
  range address := some (if address = partnerAddress then "unicast" else "private")
  isIPv6 := Address.isIPv6
  maxRedirects := 21

theorem partnerUrl_wellFormed {port : String} (hport : port.toList.all Char.isDigit = true) :
    (partnerUrl port).WellFormed where
  host := Or.inl (by decide : IsName "hooks.partner.com".toList)
  port := hport
  path := (by decide : IsPath "/hook".toList)
  search := (by decide : IsSearch "?v=2".toList)

/-- The example's library reads URLs as assumed. -/
theorem partnerLib_wellFormed : partnerLib.WellFormed := by
  intro text url hurl _
  unfold partnerLib at hurl
  dsimp only at hurl
  split_ifs at hurl
  · obtain rfl := Option.some.inj hurl
    exact partnerUrl_wellFormed rfl
  · obtain rfl := Option.some.inj hurl
    exact partnerUrl_wellFormed (by decide)
  · cases hurl

theorem requested_partner : Requested (partnerUrl "") partnerAddress := by
  have haccepted : isPrivateOrBlockedUrl partnerLib "https://hooks.partner.com/hook?v=2"
      (some partnerAddress) = false := by decide
  have hurl : partnerLib.parseUrl "https://hooks.partner.com/hook?v=2" = some (partnerUrl "") := rfl
  exact (requested_iff partnerLib_wellFormed haccepted hurl).mpr ⟨rfl, rfl⟩

/-- The request goes to the port of `https:`, whatever was registered. -/
theorem not_requested_port : ¬ ∀ lib : Lib Address, lib.WellFormed →
    ∀ text answer url, isPrivateOrBlockedUrl lib text answer = false →
      lib.parseUrl text = some url →
      ∀ answer' address, lookup url.host answer' = some address →
        isPrivateIp lib address = false → Requested url address := by
  intro hclaim
  have hrequested := hclaim partnerLib partnerLib_wellFormed "https://hooks.partner.com:8443/hook?v=2"
    (some partnerAddress) (partnerUrl "8443") (by decide) rfl (some partnerAddress) partnerAddress rfl
    (by decide)
  exact absurd hrequested.hostHeader (by decide)

end WorkPlatform.Webhook
