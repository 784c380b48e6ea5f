import Mathlib.Data.List.Basic

/-!
# Machinery/Json — values, their text, and reading it back

    Json ──stringify──▸ text ──lex──▸ tokens ──shift──▸ Json

A text is read a character at a time into tokens, and the tokens one at a time against the arrays
and objects that are open.  What `stringify` writes is read back as the value it was written for
(`parse_stringify`).
-/

namespace Machinery

namespace Json

/-! ## Numbers

A number is kept as its text. -/

/-- How far `-? int frac? exp?` has been read. -/
inductive Digits
  | start | minus | zero | int | point | frac | e | sign | exp

/-- What comes next in a number. -/
def Digits.step : Digits → Char → Option Digits
  | .start, c =>
    if c = '-' then some .minus
    else if c = '0' then some .zero
    else if c.isDigit then some .int
    else none
  | .minus, c => if c = '0' then some .zero else if c.isDigit then some .int else none
  | .zero, c => if c = '.' then some .point else if c = 'e' ∨ c = 'E' then some .e else none
  | .int, c =>
    if c.isDigit then some .int
    else if c = '.' then some .point
    else if c = 'e' ∨ c = 'E' then some .e
    else none
  | .point, c => if c.isDigit then some .frac else none
  | .frac, c =>
    if c.isDigit then some .frac else if c = 'e' ∨ c = 'E' then some .e else none
  | .e, c =>
    if c = '+' ∨ c = '-' then some .sign else if c.isDigit then some .exp else none
  | .sign, c => if c.isDigit then some .exp else none
  | .exp, c => if c.isDigit then some .exp else none

def Digits.isEnd : Digits → Bool
  | .zero | .int | .frac | .exp => true
  | _ => false

def isNumber (text : List Char) : Bool := (text.foldlM Digits.step .start).any Digits.isEnd

/-- The text of a number. -/
structure Number where
  text : List Char
  isNumber : isNumber text = true
  deriving DecidableEq

end Json

/-! ## Values -/

/-- A JSON value; the fields of an object are in order. -/
inductive Json
  | null
  | bool (b : Bool)
  | num (n : Json.Number)
  | str (s : String)
  | arr (values : List Json)
  | obj (fields : List (String × Json))

namespace Json

/-! ## The text -/

def hexDigit (n : ℕ) : Char := "0123456789abcdef".toList.getD n '0'

/-- A character, as it stands in a string. -/
def escape (c : Char) : List Char :=
  if c = '"' then ['\\', '"']
  else if c = '\\' then ['\\', '\\']
  else if c = '\x08' then ['\\', 'b']
  else if c = '\x0c' then ['\\', 'f']
  else if c = '\n' then ['\\', 'n']
  else if c = '\r' then ['\\', 'r']
  else if c = '\t' then ['\\', 't']
  else if c.toNat < 32 then
    ['\\', 'u', '0', '0', hexDigit (c.toNat / 16), hexDigit (c.toNat % 16)]
  else [c]

def quote (s : String) : List Char := '"' :: s.toList.flatMap escape ++ ['"']

mutual

/-- `JSON.stringify`, as characters. -/
def text : Json → List Char
  | .null => "null".toList
  | .bool true => "true".toList
  | .bool false => "false".toList
  | .num n => n.text
  | .str s => quote s
  | .arr [] => ['[', ']']
  | .arr (v :: vs) => '[' :: v.text ++ textMore vs
  | .obj [] => ['{', '}']
  | .obj ((k, v) :: fields) => '{' :: quote k ++ ':' :: v.text ++ textFields fields

/-- What follows a value of an array. -/
def textMore : List Json → List Char
  | [] => [']']
  | v :: vs => ',' :: v.text ++ textMore vs

/-- What follows a field of an object. -/
def textFields : List (String × Json) → List Char
  | [] => ['}']
  | (k, v) :: fields => ',' :: quote k ++ ':' :: v.text ++ textFields fields

end

/-- `JSON.stringify`. -/
def stringify (v : Json) : String := String.ofList v.text

theorem toList_stringify (v : Json) : v.stringify.toList = v.text := String.toList_ofList

/-! ## Reading characters -/

/-- A token of JSON. -/
inductive Token
  | lbrack | rbrack | lbrace | rbrace | comma | colon
  | null
  | bool (b : Bool)
  | num (n : Number)
  | str (s : String)

/-- A character of a number, or of `null`, `true` and `false`. -/
def isWordChar (c : Char) : Bool := c.isAlphanum ∨ c = '-' ∨ c = '+' ∨ c = '.'

def isSpace (c : Char) : Bool := c = ' ' ∨ c = '\n' ∨ c = '\r' ∨ c = '\t'

/-- What a run of such characters stands for. -/
def word (cs : List Char) : Option Token :=
  if cs = "null".toList then some .null
  else if cs = "true".toList then some (.bool true)
  else if cs = "false".toList then some (.bool false)
  else if h : isNumber cs then some (.num ⟨cs, h⟩)
  else none

/-- The value of a hexadecimal digit. -/
def hexValue (c : Char) : Option ℕ :=
  if '0' ≤ c ∧ c ≤ '9' then some (c.toNat - '0'.toNat)
  else if 'a' ≤ c ∧ c ≤ 'f' then some (c.toNat - 'a'.toNat + 10)
  else if 'A' ≤ c ∧ c ≤ 'F' then some (c.toNat - 'A'.toNat + 10)
  else none

/-- The character a `\` and one more stand for. -/
def unescape (c : Char) : Option Char :=
  if c = '"' ∨ c = '\\' ∨ c = '/' then some c
  else if c = 'b' then some '\x08'
  else if c = 'f' then some '\x0c'
  else if c = 'n' then some '\n'
  else if c = 'r' then some '\r'
  else if c = 't' then some '\t'
  else none

/-- What is being read; `acc` holds the characters of it, last one first. -/
inductive Lex
  | idle
  | word (acc : List Char)
  | str (acc : List Char)
  | escape (acc : List Char)
  /-- `more` digits of a `\u` are to come after the next. -/
  | code (acc : List Char) (value more : ℕ)

/-- The first character of a token. -/
def Lex.begin (c : Char) : Option (List Token × Lex) :=
  if c = '[' then some ([.lbrack], .idle)
  else if c = ']' then some ([.rbrack], .idle)
  else if c = '{' then some ([.lbrace], .idle)
  else if c = '}' then some ([.rbrace], .idle)
  else if c = ',' then some ([.comma], .idle)
  else if c = ':' then some ([.colon], .idle)
  else if c = '"' then some ([], .str [])
  else if isSpace c then some ([], .idle)
  else if isWordChar c then some ([], .word [c])
  else none

/-- One character; a surrogate is no character, and is not read. -/
def Lex.step : Lex → Char → Option (List Token × Lex)
  | .idle, c => Lex.begin c
  | .word acc, c =>
    if isWordChar c then some ([], .word (c :: acc))
    else do
      let t ← Json.word acc.reverse
      let (ts, l) ← Lex.begin c
      some (t :: ts, l)
  | .str acc, c =>
    if c = '"' then some ([.str (String.ofList acc.reverse)], .idle)
    else if c = '\\' then some ([], .escape acc)
    else if c.toNat < 32 then none
    else some ([], .str (c :: acc))
  | .escape acc, c =>
    if c = 'u' then some ([], .code acc 0 3)
    else (unescape c).map fun d => ([], .str (d :: acc))
  | .code acc value more, c => do
    let d ← hexValue c
    match more with
    | more + 1 => some ([], .code acc (16 * value + d) more)
    | 0 =>
      if (16 * value + d).isValidChar then some ([], .str (Char.ofNat (16 * value + d) :: acc))
      else none

/-- The tokens of a text, from the middle of one. -/
def lexFrom : Lex → List Char → Option (List Token)
  | .idle, [] => some []
  | .word acc, [] => (word acc.reverse).map ([·])
  | _, [] => none
  | l, c :: cs => do
    let (ts, l) ← l.step c
    (lexFrom l cs).map (ts ++ ·)

/-! ## Reading tokens -/

/-- An array or an object that is open, with what has been read of it, last one first. -/
inductive Frame
  | arr (values : List Json)
  | obj (fields : List (String × Json)) (key : String)

/-- What is expected next. -/
inductive Parser
  | value (stack : List Frame)
  | valueOrEnd (stack : List Frame)
  | fieldOrEnd (stack : List Frame)
  | field (fields : List (String × Json)) (stack : List Frame)
  | colon (fields : List (String × Json)) (key : String) (stack : List Frame)
  | after (v : Json) (stack : List Frame)

/-- A value begins. -/
def Parser.begin (stack : List Frame) : Token → Option Parser
  | .null => some (.after .null stack)
  | .bool b => some (.after (.bool b) stack)
  | .num n => some (.after (.num n) stack)
  | .str s => some (.after (.str s) stack)
  | .lbrack => some (.valueOrEnd stack)
  | .lbrace => some (.fieldOrEnd stack)
  | _ => none

/-- The next token is taken. -/
def Parser.shift : Parser → Token → Option Parser
  | .value stack, t => Parser.begin stack t
  | .valueOrEnd stack, .rbrack => some (.after (.arr []) stack)
  | .valueOrEnd stack, t => Parser.begin (.arr [] :: stack) t
  | .fieldOrEnd stack, .rbrace => some (.after (.obj []) stack)
  | .fieldOrEnd stack, .str key => some (.colon [] key stack)
  | .field fields stack, .str key => some (.colon fields key stack)
  | .colon fields key stack, .colon => some (.value (.obj fields key :: stack))
  | .after v (.arr vs :: stack), .comma => some (.value (.arr (v :: vs) :: stack))
  | .after v (.arr vs :: stack), .rbrack => some (.after (.arr (v :: vs).reverse) stack)
  | .after v (.obj fields key :: stack), .comma => some (.field ((key, v) :: fields) stack)
  | .after v (.obj fields key :: stack), .rbrace =>
    some (.after (.obj ((key, v) :: fields).reverse) stack)
  | _, _ => none

def Parser.result : Parser → Option Json
  | .after v [] => some v
  | _ => none

/-- `JSON.parse`. -/
def parse (s : String) : Option Json := do
  let ts ← lexFrom .idle s.toList
  let p ← ts.foldlM Parser.shift (.value [])
  p.result

/-! ## What is written is read back, as tokens -/

mutual

/-- The tokens of a value. -/
def tokens : Json → List Token
  | .null => [.null]
  | .bool b => [.bool b]
  | .num n => [.num n]
  | .str s => [.str s]
  | .arr [] => [.lbrack, .rbrack]
  | .arr (v :: vs) => .lbrack :: v.tokens ++ tokensMore vs
  | .obj [] => [.lbrace, .rbrace]
  | .obj ((k, v) :: fields) => .lbrace :: .str k :: .colon :: v.tokens ++ tokensFields fields

def tokensMore : List Json → List Token
  | [] => [.rbrack]
  | v :: vs => .comma :: v.tokens ++ tokensMore vs

def tokensFields : List (String × Json) → List Token
  | [] => [.rbrace]
  | (k, v) :: fields => .comma :: .str k :: .colon :: v.tokens ++ tokensFields fields

end

/-- A word ends before the text. -/
def Stops : List Char → Prop
  | [] => True
  | c :: _ => isWordChar c = false

/-- The text is read as these tokens, whatever follows it. -/
def Reads (cs : List Char) (ts : List Token) : Prop :=
  ∀ rest, Stops rest → lexFrom .idle (cs ++ rest) = (lexFrom .idle rest).map (ts ++ ·)

theorem lexFrom_cons (l : Lex) (c : Char) (cs : List Char) :
    lexFrom l (c :: cs) = (l.step c).bind fun x => (lexFrom x.2 cs).map (x.1 ++ ·) := by
  cases l <;> rfl

theorem lexFrom_of_step {l l' : Lex} {c : Char} {cs : List Char} {ts : List Token}
    (h : l.step c = some (ts, l')) : lexFrom l (c :: cs) = (lexFrom l' cs).map (ts ++ ·) := by
  rw [lexFrom_cons, h]
  rfl

theorem lexFrom_of_silent {l m : Lex} {c : Char} {cs : List Char}
    (h : l.step c = some ([], m)) : lexFrom l (c :: cs) = lexFrom m cs := by
  rw [lexFrom_of_step h]
  cases lexFrom m cs <;> rfl

/-- A punctuation mark is one token. -/
theorem reads_mark {c : Char} {t : Token} (h : Lex.begin c = some ([t], .idle)) : Reads [c] [t] :=
  fun _ _ => lexFrom_of_step h

theorem Reads.append {cs cs' : List Char} {ts ts' : List Token} (h : Reads cs ts)
    (h' : Reads cs' ts') (hstops : ∀ rest, Stops rest → Stops (cs' ++ rest)) :
    Reads (cs ++ cs') (ts ++ ts') := by
  intro rest hrest
  rw [List.append_assoc, h _ (hstops rest hrest), h' rest hrest, Option.map_map]
  congr 1
  funext x
  exact (List.append_assoc _ _ _).symm

/-! ### Words -/

/-- A letter of a word begins one. -/
theorem begin_word {c : Char} (h : isWordChar c = true) : Lex.begin c = some ([], .word [c]) := by
  have hne : ∀ d, isWordChar d = false → c ≠ d := by
    rintro d hd rfl
    rw [h] at hd
    cases hd
  have hspace : isSpace c = false := by
    refine decide_eq_false fun hc => ?_
    rcases hc with hc | hc | hc | hc <;> exact hne _ (by decide) hc
  unfold Lex.begin
  rw [if_neg (hne '[' (by decide)), if_neg (hne ']' (by decide)), if_neg (hne '{' (by decide)),
    if_neg (hne '}' (by decide)), if_neg (hne ',' (by decide)), if_neg (hne ':' (by decide)),
    if_neg (hne '"' (by decide)), if_neg (by rw [hspace]; decide), if_pos h]

theorem step_word {acc : List Char} {c : Char} (h : isWordChar c = true) :
    (Lex.word acc).step c = some ([], .word (c :: acc)) := if_pos h

theorem step_stop {acc : List Char} {c : Char} (h : isWordChar c = false) :
    (Lex.word acc).step c
      = (word acc.reverse).bind fun t => (Lex.begin c).map fun x => (t :: x.1, x.2) := by
  refine (if_neg (Bool.eq_false_iff.mp h)).trans ?_
  cases word acc.reverse with
  | none => rfl
  | some t => cases Lex.begin c <;> rfl

/-- A word is read up to where it stops. -/
theorem lexFrom_word {rest : List Char} (hrest : Stops rest) :
    ∀ (cs acc : List Char), (∀ c ∈ cs, isWordChar c = true) →
      lexFrom (.word acc) (cs ++ rest)
        = (word (acc.reverse ++ cs)).bind fun t => (lexFrom .idle rest).map ([t] ++ ·)
  | [], acc, _ => by
    rw [List.append_nil, List.nil_append]
    cases rest with
    | nil => cases h : word acc.reverse <;> simp [lexFrom, h]
    | cons c rest =>
      rw [lexFrom_cons, step_stop hrest, Option.bind_assoc]
      congr 1
      funext t
      rw [lexFrom_cons, Option.bind_map, Option.map_bind]
      congr 1
      funext x
      change (lexFrom x.2 rest).map (t :: x.1 ++ ·)
        = ((lexFrom x.2 rest).map (x.1 ++ ·)).map ([t] ++ ·)
      rw [Option.map_map]
      rfl
  | c :: cs, acc, hcs => by
    rw [List.cons_append, lexFrom_of_silent (step_word (hcs c (.head _))),
      lexFrom_word hrest cs (c :: acc) fun d hd => hcs d (.tail _ hd), List.reverse_cons,
      List.append_assoc]
    rfl

/-- A word is read as its token. -/
theorem reads_word {cs : List Char} {t : Token} (hcs : ∀ c ∈ cs, isWordChar c = true)
    (hne : cs ≠ []) (hword : word cs = some t) : Reads cs [t] := by
  intro rest hrest
  obtain ⟨c, cs, rfl⟩ := List.exists_cons_of_ne_nil hne
  have hbegin : Lex.idle.step c = some ([], .word [c]) := begin_word (hcs c (.head _))
  rw [List.cons_append, lexFrom_of_silent hbegin,
    lexFrom_word hrest cs [c] fun d hd => hcs d (.tail _ hd)]
  change (word (c :: cs)).bind _ = _
  rw [hword]
  rfl

theorem isWordChar_of_isDigit {c : Char} (h : c.isDigit = true) : isWordChar c = true :=
  decide_eq_true (.inl (Bool.or_eq_true_iff.mpr (.inr h)))

theorem isWordChar_of_step {d d' : Digits} {c : Char} (h : d.step c = some d') :
    isWordChar c = true := by
  by_cases hdigit : c.isDigit = true
  · exact isWordChar_of_isDigit hdigit
  · have hc : c = '-' ∨ c = '0' ∨ c = '.' ∨ c = 'e' ∨ c = 'E' ∨ c = '+' := by
      cases d <;> grind [Digits.step]
    rcases hc with rfl | rfl | rfl | rfl | rfl | rfl <;> rfl

/-- What is read as a number is of characters of a word. -/
theorem isWordChar_of_foldlM : ∀ (cs : List Char) {d d' : Digits},
    cs.foldlM Digits.step d = some d' → ∀ c ∈ cs, isWordChar c = true
  | [], _, _, _, _, hc => by cases hc
  | c :: cs, d, d', h, b, hb => by
    rw [List.foldlM_cons] at h
    obtain ⟨d₁, hstep, hrest⟩ := Option.bind_eq_some_iff.mp h
    rcases List.mem_cons.mp hb with rfl | hb
    · exact isWordChar_of_step hstep
    · exact isWordChar_of_foldlM cs hrest b hb

theorem Number.isWordChar (n : Number) : ∀ c ∈ n.text, isWordChar c = true := by
  obtain ⟨d, hd, -⟩ := (Option.any_eq_true _ _).mp n.isNumber
  exact isWordChar_of_foldlM n.text hd

/-- The text of a number is read as that number. -/
theorem word_number (n : Number) : word n.text = some (.num n) := by
  have hne : ∀ cs, Json.isNumber cs = false → n.text ≠ cs := by
    rintro cs hcs heq
    have hn := n.isNumber
    rw [heq, hcs] at hn
    cases hn
  unfold word
  rw [if_neg (hne _ (by decide)), if_neg (hne _ (by decide)), if_neg (hne _ (by decide)),
    dif_pos n.isNumber]

theorem reads_number (n : Number) : Reads n.text [.num n] := by
  refine reads_word n.isWordChar (fun hnil => ?_) (word_number n)
  have hn := n.isNumber
  rw [hnil] at hn
  exact absurd hn (by decide)

/-! ### Strings -/

theorem hexValue_hexDigit : ∀ d < 16, hexValue (hexDigit d) = some d := by decide

theorem lexFrom_digit {acc : List Char} {value more d : ℕ} {rest : List Char} (hd : d < 16) :
    lexFrom (.code acc value (more + 1)) (hexDigit d :: rest)
      = lexFrom (.code acc (16 * value + d) more) rest := by
  refine lexFrom_of_silent ?_
  rw [Lex.step, hexValue_hexDigit d hd]
  rfl

theorem lexFrom_lastDigit {acc : List Char} {value d : ℕ} {c : Char} {rest : List Char}
    (hd : d < 16) (hc : 16 * value + d = c.toNat) :
    lexFrom (.code acc value 0) (hexDigit d :: rest) = lexFrom (.str (c :: acc)) rest := by
  refine lexFrom_of_silent ?_
  rw [Lex.step, hexValue_hexDigit d hd]
  have hvalid : c.toNat.isValidChar := c.valid
  change (if (16 * value + d).isValidChar then _ else none) = _
  rw [hc, if_pos hvalid, Char.ofNat_toNat]

theorem lexFrom_unescape {acc : List Char} {c d : Char} {rest : List Char} (hu : c ≠ 'u')
    (h : unescape c = some d) :
    lexFrom (.str acc) ('\\' :: c :: rest) = lexFrom (.str (d :: acc)) rest := by
  have hstep : (Lex.escape acc).step c = some ([], .str (d :: acc)) := by
    rw [Lex.step, if_neg hu, h]
    rfl
  rw [lexFrom_of_silent (m := .escape acc) rfl, lexFrom_of_silent hstep]

/-- A character that was escaped is read back. -/
theorem lexFrom_escape (c : Char) (acc rest : List Char) :
    lexFrom (.str acc) (escape c ++ rest) = lexFrom (.str (c :: acc)) rest := by
  unfold escape
  split_ifs with h₁ h₂ h₃ h₄ h₅ h₆ h₇ h₈
  · subst h₁
    exact lexFrom_unescape (by decide) rfl
  · subst h₂
    exact lexFrom_unescape (by decide) rfl
  · subst h₃
    exact lexFrom_unescape (by decide) rfl
  · subst h₄
    exact lexFrom_unescape (by decide) rfl
  · subst h₅
    exact lexFrom_unescape (by decide) rfl
  · subst h₆
    exact lexFrom_unescape (by decide) rfl
  · subst h₇
    exact lexFrom_unescape (by decide) rfl
  · have hdigit : lexFrom (.str acc) ('\\' :: 'u' :: '0' :: '0' :: hexDigit (c.toNat / 16)
        :: hexDigit (c.toNat % 16) :: rest)
          = lexFrom (.code acc 0 1)
              (hexDigit (c.toNat / 16) :: hexDigit (c.toNat % 16) :: rest) := by
      rw [lexFrom_of_silent (m := .escape acc) rfl, lexFrom_of_silent (m := .code acc 0 3) rfl,
        lexFrom_of_silent (m := .code acc 0 2) rfl, lexFrom_of_silent (m := .code acc 0 1) rfl]
    refine hdigit.trans ?_
    rw [lexFrom_digit (by omega), lexFrom_lastDigit (c := c) (by omega) (by omega)]
  · have hstep : (Lex.str acc).step c = some ([], .str (c :: acc)) := by
      rw [Lex.step, if_neg h₁, if_neg h₂, if_neg h₈]
    exact lexFrom_of_silent hstep

/-- A string that was escaped is read back. -/
theorem lexFrom_str (rest : List Char) : ∀ cs acc : List Char,
    lexFrom (.str acc) (cs.flatMap escape ++ '"' :: rest)
      = (lexFrom .idle rest).map ([.str (String.ofList (acc.reverse ++ cs))] ++ ·)
  | [], acc => by
    rw [List.append_nil]
    exact lexFrom_of_step rfl
  | c :: cs, acc => by
    rw [List.flatMap_cons, List.append_assoc, lexFrom_escape, lexFrom_str rest cs (c :: acc),
      List.reverse_cons, List.append_assoc]
    rfl

theorem reads_quote (s : String) : Reads (quote s) [.str s] := by
  intro rest _
  have hbegin : Lex.idle.step '"' = some ([], .str []) := rfl
  unfold quote
  rw [List.cons_append, List.cons_append, lexFrom_of_silent hbegin, List.append_assoc]
  refine (lexFrom_str rest s.toList []).trans ?_
  rw [List.reverse_nil, List.nil_append, String.ofList_toList]

/-! ### Values -/

theorem stops_textMore : ∀ (vs : List Json) (rest : List Char), Stops (textMore vs ++ rest)
  | [], _ => rfl
  | _ :: _, _ => rfl

theorem stops_textFields : ∀ (fields : List (String × Json)) (rest : List Char),
    Stops (textFields fields ++ rest)
  | [], _ => rfl
  | _ :: _, _ => rfl

/-- A mark, and what follows it. -/
theorem Reads.mark {c : Char} {t : Token} {cs : List Char} {ts : List Token}
    (hc : Lex.begin c = some ([t], .idle)) (h : Reads cs ts) : Reads (c :: cs) (t :: ts) := by
  intro rest hrest
  have hstep : Lex.idle.step c = some ([t], .idle) := hc
  rw [List.cons_append, lexFrom_of_step hstep, h rest hrest, Option.map_map]
  rfl

/-- A key, and what follows it. -/
theorem Reads.key (k : String) {cs : List Char} {ts : List Token} (h : Reads cs ts) :
    Reads (quote k ++ ':' :: cs) (.str k :: .colon :: ts) :=
  (reads_quote k).append (.mark rfl h) fun _ _ => rfl

mutual

/-- The text of a value is read as its tokens. -/
theorem reads_text : ∀ v : Json, Reads v.text v.tokens
  | .null => reads_word (List.all_eq_true.mp rfl) (by decide) rfl
  | .bool true => reads_word (List.all_eq_true.mp rfl) (by decide) rfl
  | .bool false => reads_word (List.all_eq_true.mp rfl) (by decide) rfl
  | .num n => reads_number n
  | .str s => reads_quote s
  | .arr [] => .mark rfl (reads_mark rfl)
  | .arr (v :: vs) =>
    .mark rfl ((reads_text v).append (reads_textMore vs) fun rest _ => stops_textMore vs rest)
  | .obj [] => .mark rfl (reads_mark rfl)
  | .obj ((k, v) :: fields) => by
    have hvalue := (reads_text v).append (reads_textFields fields) fun rest _ =>
      stops_textFields fields rest
    unfold text tokens
    rw [List.cons_append, List.cons_append, List.append_assoc]
    exact .mark rfl (.key k hvalue)

theorem reads_textMore : ∀ vs : List Json, Reads (textMore vs) (tokensMore vs)
  | [] => reads_mark rfl
  | v :: vs =>
    .mark rfl ((reads_text v).append (reads_textMore vs) fun rest _ => stops_textMore vs rest)

/-- The text of the rest of an object is read as its tokens. -/
theorem reads_textFields : ∀ fields : List (String × Json),
    Reads (textFields fields) (tokensFields fields)
  | [] => reads_mark rfl
  | (k, v) :: fields => by
    have hvalue := (reads_text v).append (reads_textFields fields) fun rest _ =>
      stops_textFields fields rest
    unfold textFields tokensFields
    rw [List.cons_append, List.cons_append, List.append_assoc]
    exact .mark rfl (.key k hvalue)

end

/-! ## The tokens are read as the value -/

/-- A value does not begin as an array ends. -/
theorem foldlM_valueOrEnd (v : Json) (stack : List Frame) (ts : List Token) :
    (v.tokens ++ ts).foldlM Parser.shift (.valueOrEnd stack)
      = (v.tokens ++ ts).foldlM Parser.shift (.value (.arr [] :: stack)) := by
  match v with
  | .null | .bool _ | .num _ | .str _ | .arr [] | .arr (_ :: _) | .obj [] | .obj (_ :: _) => rfl

mutual

/-- The tokens of a value are parsed to the value. -/
theorem foldlM_tokens : ∀ (v : Json) (stack : List Frame) (ts : List Token),
    (v.tokens ++ ts).foldlM Parser.shift (.value stack) = ts.foldlM Parser.shift (.after v stack)
  | .null, _, _ | .bool _, _, _ | .num _, _, _ | .str _, _, _ | .arr [], _, _ | .obj [], _, _ => rfl
  | .arr (v :: vs), stack, ts => by
    change (v.tokens ++ tokensMore vs ++ ts).foldlM Parser.shift (.valueOrEnd stack) = _
    rw [List.append_assoc, foldlM_valueOrEnd, foldlM_tokens v, foldlM_tokensMore vs]
    rfl
  | .obj ((k, v) :: fields), stack, ts => by
    change (v.tokens ++ tokensFields fields ++ ts).foldlM Parser.shift
      (.value (.obj [] k :: stack)) = _
    rw [List.append_assoc, foldlM_tokens v, foldlM_tokensFields fields]
    rfl

/-- So are those of the rest of an array. -/
theorem foldlM_tokensMore : ∀ (vs : List Json) (v : Json) (before : List Json)
    (stack : List Frame) (ts : List Token),
    (tokensMore vs ++ ts).foldlM Parser.shift (.after v (.arr before :: stack))
      = ts.foldlM Parser.shift (.after (.arr (before.reverse ++ v :: vs)) stack)
  | [], v, before, stack, ts => by
    rw [← List.reverse_cons]
    rfl
  | w :: vs, v, before, stack, ts => by
    change (w.tokens ++ tokensMore vs ++ ts).foldlM Parser.shift
      (.value (.arr (v :: before) :: stack)) = _
    rw [List.append_assoc, foldlM_tokens w, foldlM_tokensMore vs, List.reverse_cons,
      List.append_assoc]
    rfl

/-- And those of the rest of an object. -/
theorem foldlM_tokensFields : ∀ (fields : List (String × Json)) (k : String) (v : Json)
    (before : List (String × Json)) (stack : List Frame) (ts : List Token),
    (tokensFields fields ++ ts).foldlM Parser.shift (.after v (.obj before k :: stack))
      = ts.foldlM Parser.shift (.after (.obj (before.reverse ++ (k, v) :: fields)) stack)
  | [], k, v, before, stack, ts => by
    rw [← List.reverse_cons]
    rfl
  | (l, w) :: fields, k, v, before, stack, ts => by
    change (w.tokens ++ tokensFields fields ++ ts).foldlM Parser.shift
      (.value (.obj ((k, v) :: before) l :: stack)) = _
    rw [List.append_assoc, foldlM_tokens w, foldlM_tokensFields fields, List.reverse_cons,
      List.append_assoc]
    rfl

end

/-- **What is written is read back.** -/
theorem parse_stringify (v : Json) : parse v.stringify = some v := by
  have hlex : lexFrom .idle v.text = some v.tokens := by
    have h := reads_text v [] trivial
    rw [List.append_nil] at h
    rw [h]
    exact congrArg some (List.append_nil _)
  have hshift := foldlM_tokens v [] []
  rw [List.append_nil] at hshift
  unfold parse
  rw [toList_stringify, hlex]
  change (v.tokens.foldlM Parser.shift (.value [])).bind Parser.result = _
  rw [hshift]
  rfl

theorem stringify_injective : Function.Injective stringify := by
  intro v w h
  have hparse := parse_stringify v
  rw [h, parse_stringify w] at hparse
  exact (Option.some.inj hparse).symm

example : (parse "[1, \x7b\"a\\u0041\": \x7b\x7d\x7d, -2.5e+3]").map stringify
    = some "[1,\x7b\"aA\":\x7b\x7d\x7d,-2.5e+3]" := by decide

end Json

end Machinery
