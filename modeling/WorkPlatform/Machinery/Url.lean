import Mathlib.Data.List.Basic
import Mathlib.Data.List.Count
import Mathlib.Data.List.TakeWhile
import Mathlib.Data.Nat.Notation

/-!
# Machinery/Url — the text of a URL, and its parts

    https ://  93.184.216.34 : 8443   /hook   ?q=1
    scheme     host            port   path    search
    https ://  [2606:2800::1] : 8443  /hook   ?q=1

A colon in the authority begins the port, unless it stands in brackets.  What is written is read
back (`read_write`), and an authority with two colons that has no brackets is none
(`readAuthority_colons`).
-/

namespace Machinery.Url

/-- The parts of a URL, as its text has them; a port is empty where it is that of the scheme. -/
structure Parts where
  scheme : List Char
  host : List Char
  port : List Char
  path : List Char
  search : List Char
  deriving DecidableEq

/-- Where the authority ends. -/
def isDelim (c : Char) : Bool := c = '/' ∨ c = '?' ∨ c = '#'

/-- Where the path ends. -/
def endsPath (c : Char) : Bool := c = '?' ∨ c = '#'

/-! ## Reading -/

/-- What follows the host: nothing, or a port. -/
def readPort (host : List Char) : List Char → Option (List Char × List Char)
  | [] => some (host, [])
  | ':' :: port => if port.all Char.isDigit then some (host, port) else none
  | _ => none

/-- A host in brackets, or one that ends at the first colon. -/
def readAuthority (authority : List Char) : Option (List Char × List Char) :=
  match authority with
  | '[' :: rest =>
    match rest.dropWhile (· ≠ ']') with
    | ']' :: more => readPort ('[' :: rest.takeWhile (· ≠ ']') ++ [']']) more
    | _ => none
  | _ =>
    if authority.takeWhile (· ≠ ':') = [] then none
    else readPort (authority.takeWhile (· ≠ ':')) (authority.dropWhile (· ≠ ':'))

/-- What follows `scheme://`; a fragment is no part of a request. -/
def readRest (scheme rest : List Char) : Option Parts :=
  let tail := rest.dropWhile fun c => ¬ isDelim c
  (readAuthority (rest.takeWhile fun c => ¬ isDelim c)).map fun authority =>
    { scheme := scheme
      host := authority.1
      port := authority.2
      path := tail.takeWhile fun c => ¬ endsPath c
      search := (tail.dropWhile fun c => ¬ endsPath c).takeWhile (· ≠ '#') }

/-- The parts of a URL; `none` where it is no URL with an authority. -/
def read (text : List Char) : Option Parts :=
  match text.dropWhile (· ≠ ':') with
  | ':' :: '/' :: '/' :: rest => readRest (text.takeWhile (· ≠ ':')) rest
  | _ => none

/-! ## Writing -/

def Parts.authority (p : Parts) : List Char := p.host ++ if p.port = [] then [] else ':' :: p.port

def Parts.write (p : Parts) : List Char :=
  p.scheme ++ ':' :: '/' :: '/' :: (p.authority ++ (p.path ++ p.search))

def IsName (host : List Char) : Prop :=
  host ≠ [] ∧ host.head? ≠ some '[' ∧ ∀ c ∈ host, c ≠ ':' ∧ isDelim c = false

/-- A host by its name, or in brackets. -/
def IsHost (host : List Char) : Prop :=
  IsName host ∨ ∃ inner, host = '[' :: inner ++ [']'] ∧ ∀ c ∈ inner, c ≠ ']' ∧ isDelim c = false

/-- `/…`. -/
def IsPath (path : List Char) : Prop :=
  path.head? = some '/' ∧ ∀ c ∈ path, endsPath c = false

/-- `?…`, or nothing. -/
def IsSearch (search : List Char) : Prop :=
  (search = [] ∨ search.head? = some '?') ∧ '#' ∉ search

instance : DecidablePred IsName := fun host =>
  @instDecidableAnd _ _ inferInstance
    (@instDecidableAnd _ _ inferInstance (List.decidableBAll _ host))

instance : DecidablePred IsPath := fun path =>
  @instDecidableAnd _ _ inferInstance (List.decidableBAll _ path)

instance : DecidablePred IsSearch := fun search =>
  inferInstanceAs (Decidable ((search = [] ∨ search.head? = some '?') ∧ '#' ∉ search))

/-- The parts can be told apart again. -/
structure Parts.Valid (p : Parts) : Prop where
  scheme : ':' ∉ p.scheme
  host : IsHost p.host
  port : p.port.all Char.isDigit = true
  path : IsPath p.path
  search : IsSearch p.search

/-! ## What is written is read -/

section

variable {α : Type*}

/-- A run of characters ends where the next ones begin. -/
theorem span_append (f : α → Bool) (xs ys : List α) (hxs : ∀ x ∈ xs, f x = true)
    (hys : ∀ y ∈ ys.head?, f y = false) :
    (xs ++ ys).takeWhile f = xs ∧ (xs ++ ys).dropWhile f = ys := by
  have htake : ys.takeWhile f = [] ∧ ys.dropWhile f = ys := by
    cases ys with
    | nil => exact ⟨rfl, rfl⟩
    | cons y ys =>
      have hy := ne_true_of_eq_false (hys y rfl)
      exact ⟨List.takeWhile_cons_of_neg hy, List.dropWhile_cons_of_neg hy⟩
  rw [List.takeWhile_append_of_pos hxs, List.dropWhile_append_of_pos hxs, htake.1, htake.2,
    List.append_nil]
  exact ⟨rfl, rfl⟩

end

section

variable {scheme host port authority path search : List Char}

/-- **The parts of a text**, whatever its authority is. -/
theorem read_append (hscheme : ':' ∉ scheme) (hauthority : ∀ c ∈ authority, isDelim c = false)
    (hpath : IsPath path) (hsearch : IsSearch search) :
    read (scheme ++ ':' :: '/' :: '/' :: (authority ++ (path ++ search))) =
      (readAuthority authority).map fun a => ⟨scheme, a.1, a.2, path, search⟩ := by
  have hrest : ∀ c ∈ (path ++ search).head?, decide (¬ isDelim c = true) = false := by
    intro c hc
    rw [List.head?_append, hpath.1] at hc
    obtain rfl := Option.some.inj hc
    rfl
  have hend : ∀ c ∈ search.head?, decide (¬ endsPath c = true) = false := by
    intro c hc
    rcases hsearch.1 with hnil | hmark
    · rw [hnil] at hc
      cases hc
    · rw [hmark] at hc
      obtain rfl := Option.some.inj hc
      rfl
  obtain ⟨htake₁, hdrop₁⟩ := span_append (· ≠ ':') scheme
    (':' :: '/' :: '/' :: (authority ++ (path ++ search)))
    (fun c hc => decide_eq_true fun heq => hscheme (heq ▸ hc))
    fun c hc => by rw [← Option.some.inj hc]; rfl
  obtain ⟨htake₂, hdrop₂⟩ := span_append (fun c => ¬ isDelim c) authority (path ++ search)
    (fun c hc => decide_eq_true (ne_true_of_eq_false (hauthority c hc))) hrest
  obtain ⟨htake₃, hdrop₃⟩ := span_append (fun c => ¬ endsPath c) path search
    (fun c hc => decide_eq_true (ne_true_of_eq_false (hpath.2 c hc))) hend
  have hsearch' : search.takeWhile (· ≠ '#') = search :=
    List.takeWhile_eq_self_iff.mpr fun c hc => decide_eq_true fun heq => hsearch.2 (heq ▸ hc)
  simp only [read, hdrop₁, htake₁, readRest, htake₂, hdrop₂, htake₃, hdrop₃, hsearch']

theorem readAuthority_name (hhead : authority.head? ≠ some '[') : readAuthority authority =
    if authority.takeWhile (· ≠ ':') = [] then none
    else readPort (authority.takeWhile (· ≠ ':')) (authority.dropWhile (· ≠ ':')) := by
  unfold readAuthority
  split
  · exact absurd rfl hhead
  · rfl

theorem readPort_port (host : List Char) (hport : port.all Char.isDigit = true) :
    readPort host (if port = [] then [] else ':' :: port) = some (host, port) := by
  split_ifs with hempty
  · rw [hempty, readPort]
  · rw [readPort, if_pos hport]

/-- The authority is read back. -/
theorem readAuthority_host (hhost : IsHost host) (hport : port.all Char.isDigit = true) :
    readAuthority (host ++ if port = [] then [] else ':' :: port) = some (host, port) := by
  rcases hhost with ⟨hne, hhead, hchars⟩ | ⟨inner, rfl, hchars⟩
  · have hcolon : ∀ c ∈ (if port = [] then [] else ':' :: port).head?, decide (c ≠ ':') = false := by
      intro c hc
      split_ifs at hc
      · cases hc
      · obtain rfl := Option.some.inj hc
        rfl
    obtain ⟨htake, hdrop⟩ := span_append (· ≠ ':') host (if port = [] then [] else ':' :: port)
      (fun c hc => decide_eq_true (hchars c hc).1) hcolon
    have hhead' : (host ++ if port = [] then [] else ':' :: port).head? ≠ some '[' := by
      rw [List.head?_append_of_ne_nil _ hne]
      exact hhead
    rw [readAuthority_name hhead', htake, hdrop, if_neg hne, readPort_port host hport]
  · obtain ⟨htake, hdrop⟩ := span_append (· ≠ ']') inner
      (']' :: if port = [] then [] else ':' :: port)
      (fun c hc => decide_eq_true (hchars c hc).1)
      fun c hc => by rw [← Option.some.inj hc]; rfl
    have htext : '[' :: inner ++ [']'] ++ (if port = [] then [] else ':' :: port) =
        '[' :: (inner ++ ']' :: if port = [] then [] else ':' :: port) := by
      rw [List.cons_append, List.cons_append, List.append_assoc, List.singleton_append]
    rw [htext]
    simp only [readAuthority, htake, hdrop]
    exact readPort_port _ hport

/-- **Two colons without brackets are no authority.** -/
theorem readAuthority_colons (hhead : authority.head? ≠ some '[')
    (hcolons : 2 ≤ authority.count ':') : readAuthority authority = none := by
  rw [readAuthority_name hhead]
  have hsplit : authority.takeWhile (· ≠ ':') ++ authority.dropWhile (· ≠ ':') = authority :=
    List.takeWhile_append_dropWhile
  have hbefore : (authority.takeWhile (· ≠ ':')).count ':' = 0 :=
    List.count_eq_zero.mpr fun hmem => absurd (List.mem_takeWhile_imp hmem) (by decide)
  have hafter : 2 ≤ (authority.dropWhile (· ≠ ':')).count ':' := by
    rwa [← hsplit, List.count_append, hbefore, Nat.zero_add] at hcolons
  split_ifs with hempty
  · rfl
  · cases hdrop : authority.dropWhile (· ≠ ':') with
    | nil =>
      rw [hdrop] at hafter
      cases hafter
    | cons c port =>
      have hhead' := List.head?_dropWhile_not (· ≠ ':') authority
      rw [hdrop] at hafter hhead'
      obtain rfl : c = ':' := not_not.mp (of_decide_eq_false hhead')
      have hport : ':' ∈ port := by
        rw [List.count_cons_self] at hafter
        exact List.count_pos_iff.mp (Nat.le_of_succ_le_succ hafter)
      have hdigits : ¬ port.all Char.isDigit = true := fun h =>
        absurd (List.all_eq_true.mp h ':' hport) (by decide)
      rw [readPort, if_neg hdigits]

theorem isDelim_of_isDigit {c : Char} (h : c.isDigit = true) : isDelim c = false := by
  refine decide_eq_false ?_
  rintro (rfl | rfl | rfl) <;> exact absurd h (by decide)

/-- No character of an authority ends it. -/
theorem isDelim_authority (hhost : IsHost host) (hport : port.all Char.isDigit = true) :
    ∀ c ∈ host ++ (if port = [] then [] else ':' :: port), isDelim c = false := by
  intro c hc
  rcases List.mem_append.mp hc with hc | hc
  · rcases hhost with ⟨-, -, hchars⟩ | ⟨inner, rfl, hchars⟩
    · exact (hchars c hc).2
    · rw [List.cons_append, List.mem_cons, List.mem_append, List.mem_singleton] at hc
      rcases hc with rfl | hc | rfl
      · rfl
      · exact (hchars c hc).2
      · rfl
  · split_ifs at hc
    · cases hc
    · rcases List.mem_cons.mp hc with rfl | hc
      · rfl
      · exact isDelim_of_isDigit (List.all_eq_true.mp hport c hc)

/-- **What is written is read.** -/
theorem read_write {p : Parts} (hp : p.Valid) : read p.write = some p := by
  rw [Parts.write, Parts.authority, read_append hp.scheme (isDelim_authority hp.host hp.port) hp.path
    hp.search, readAuthority_host hp.host hp.port]
  rfl

end

end Machinery.Url
