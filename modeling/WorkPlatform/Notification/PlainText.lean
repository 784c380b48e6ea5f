import WorkPlatform.Machinery.Replace

/-!
# Notification/PlainText — `renderTemplate`, and the plain text of an email

    template ──Handlebars──▸ MJML ──mjml2html──▸ html
                                                  │ /<style[^>]*>[\s\S]*?<\/style>/gi ↦ ""
                                                  │ /<[^>]+>/g ↦ " "
                                                  │ /\s{2,}/g ↦ " "
                                                  ▾ trim()
                                                 text

The html is read by four replacements, one after the other, and none of them parses it.  Whatever
the html is, the text has no tag, no two characters of white space in a row and none at its ends,
and reading it again changes nothing (`plain_of_renderTemplate`).  Where the html is a document of
texts, tags and style blocks, the words of the text are those of the texts, which the tags separate
(`words_plainText`).
-/

namespace WorkPlatform.Notification

open Machinery

/-! ## The replacements -/

/-- The characters of `\s` by their codes, less those from `2000` to `200a`. -/
def spaceCodes : List ℕ :=
  [0x09, 0x0a, 0x0b, 0x0c, 0x0d, 0x20, 0xa0, 0x1680, 0x2028, 0x2029, 0x202f, 0x205f, 0x3000, 0xfeff]

/-- `\s`, which is also what `trim()` takes off. -/
def isSpace (c : Char) : Bool :=
  spaceCodes.contains c.toNat || decide (0x2000 ≤ c.toNat ∧ c.toNat ≤ 0x200a)

/-- A small letter or a sign of a pattern with the flag `i`. -/
def sameLetter (a b : Char) : Bool := b == a || b == a.toUpper

/-- `/<style[^>]*>[\s\S]*?<\/style>/gi`. -/
def styleBlocks : Regex Char := .block sameLetter "<style".toList "</style>".toList (· == '>')

/-- `/<[^>]+>/g`. -/
def tags : Regex Char := .bracketed (· == '<') (· == '>')

/-- `/\s{2,}/g`. -/
def spaces : Regex Char := .runs isSpace

/-- The plain text of an html. -/
def plainText (html : List Char) : List Char :=
  Regex.trim isSpace (spaces.replace [' '] (tags.replace [' '] (styleBlocks.replace [] html)))

/-- The templates by their paths, `Handlebars.compile(source)(data)` and `mjml2html`. -/
structure Renderer (δ : Type*) where
  readFileSync : String → Option String
  compile : String → δ → Except String String
  mjml2html : String → Except String String

variable {δ : Type*}

/-- `renderTemplate`, less the warnings of MJML, which are only logged. -/
def renderTemplate (r : Renderer δ) (templateName : String) (data : δ) :
    Except String (String × String) :=
  match r.readFileSync (templateName ++ ".mjml.hbs") with
  | none => .error ("Email template not found: " ++ templateName)
  | some templateSource => do
    let hbsCompiled ← r.compile templateSource data
    let html ← r.mjml2html hbsCompiled
    return (html, String.ofList (plainText html.toList))

/-! ## The text of any html -/

/-- A text without tags, and with single white space between its words only. -/
structure Plain (text : List Char) : Prop where
  tagless : tags.Free text
  single : text.IsChain fun b c => isSpace b = true → isSpace c = false
  head : ∀ c, text.head? = some c → isSpace c = false
  last : ∀ c, text.getLast? = some c → isSpace c = false

theorem isSpace_blank : isSpace ' ' = true := by decide

theorem not_bracket_of_isSpace {c : Char} (h : isSpace c = true) :
    (c == '<') = false ∧ (c == '>') = false := by
  refine ⟨?_, ?_⟩
  all_goals
    by_contra hc
    rw [Bool.not_eq_false, beq_iff_eq] at hc
    subst hc
    exact absurd h (by decide)

/-- Whatever the html, the replacements leave a plain text. -/
theorem plain_plainText (html : List Char) : Plain (plainText html) := by
  have hblank : ∀ a ∈ [' '], (a == '<') = false ∧ (a == '>') = false :=
    List.forall_mem_singleton.mpr (by decide)
  have htagless : tags.Free (tags.replace [' '] (styleBlocks.replace [] html)) :=
    Regex.bracketed_free_replace hblank (fun c l n h => ?_) fun _ _ h => h
  case refine_1 =>
    by_contra hc
    have hopens : (c == '<') = false := by
      rw [Bool.not_eq_false, beq_iff_eq] at hc
      subst hc
      decide
    have hnone : tags.matchAt (c :: l) = none := Regex.bracketed_none_of_not_opens hopens
    rw [hnone] at h
    cases h
  have hspaced : tags.Free (spaces.replace [' '] (tags.replace [' '] (styleBlocks.replace [] html))) :=
    Regex.bracketed_free_replace hblank
      (fun c l n h => (not_bracket_of_isSpace (Regex.runs_head h)).2) fun s hs _ => htagless s hs
  have hinfix : plainText html <:+:
      spaces.replace [' '] (tags.replace [' '] (styleBlocks.replace [] html)) :=
    Regex.trim_prefix.isInfix.trans (List.dropWhile_suffix isSpace).isInfix
  exact
    { tagless := (hspaced.suffix (List.dropWhile_suffix isSpace)).bracketed_initial Regex.trim_prefix
      single := List.IsChain.infix (Regex.isChain_replace_runs ' ' _) hinfix
      head := fun _ => Regex.head_trim
      last := fun _ => Regex.getLast_trim }

/-- A style block begins with `<s` or `<S`. -/
theorem startsWith_style {l : List Char}
    (h : Regex.startsWith sameLetter "<style".toList l = true) :
    ∃ b l', l = '<' :: b :: l' ∧ (b = 's' ∨ b = 'S') := by
  have hword : "<style".toList = ['<', 's', 't', 'y', 'l', 'e'] := rfl
  have hsign : '<'.toUpper = '<' := by decide
  have hletter : 's'.toUpper = 'S' := by decide
  rw [hword] at h
  cases l with
  | nil => cases h
  | cons a l =>
    rw [Regex.startsWith, Bool.and_eq_true] at h
    cases l with
    | nil => cases h.2
    | cons b l' =>
      rw [Regex.startsWith, Bool.and_eq_true] at h
      obtain ⟨ha, hb, -⟩ := h
      unfold sameLetter at ha hb
      rw [hsign, Bool.or_self, beq_iff_eq] at ha
      rw [hletter, Bool.or_eq_true, beq_iff_eq, beq_iff_eq] at hb
      subst ha
      exact ⟨b, l', rfl, hb⟩

/-- A style block begins with a tag. -/
theorem tags_of_styleBlocks {l : List Char} {n : ℕ} (h : styleBlocks.matchAt l = some n) :
    tags.matchAt l ≠ none := by
  have hstart : Regex.startsWith sameLetter "<style".toList l = true := by
    by_contra hnot
    have hnone : styleBlocks.matchAt l = none := Regex.block_none (eq_false_of_ne_true hnot)
    rw [hnone] at h
    cases h
  obtain ⟨b, l, rfl, hb⟩ := startsWith_style hstart
  intro hnone
  rcases Regex.bracketedAt_eq_none.mp hnone with hopens | ⟨c, hc, hcloses⟩ | hall
  · exact absurd hopens (by decide)
  · obtain rfl := Option.some.inj hc
    rcases hb with rfl | rfl <;> exact absurd hcloses (by decide)
  · obtain ⟨c, hc, hcloses⟩ := Regex.closes_of_block h
    rcases List.mem_cons.mp (List.mem_of_mem_drop hc) with rfl | hc
    · exact absurd hcloses (by decide)
    · rw [hall c hc] at hcloses
      cases hcloses

/-- **A plain text is read as it is.** -/
theorem Plain.plainText_eq {text : List Char} (h : Plain text) : plainText text = text := by
  have hstyles : styleBlocks.Free text := by
    intro s hs
    cases hs' : styleBlocks.matchAt s with
    | none => rfl
    | some n => exact absurd (h.tagless s hs) (tags_of_styleBlocks hs')
  have hspaces : spaces.Free text := Regex.runs_free_of_isChain h.single
  unfold plainText
  rw [hstyles.replace_eq, h.tagless.replace_eq, hspaces.replace_eq,
    Regex.trim_eq_self h.head h.last]

/-- **The plain text of an email.**  Whatever the template, its data, Handlebars and MJML make of
each other: the text has no tag, no two characters of white space in a row and none at its ends, and
it is its own plain text. -/
theorem plain_of_renderTemplate {r : Renderer δ} {templateName html text : String} {data : δ}
    (h : renderTemplate r templateName data = .ok (html, text)) :
    Plain text.toList ∧ plainText text.toList = text.toList := by
  have htext : text.toList = plainText html.toList := by
    unfold renderTemplate at h
    split at h
    case h_1 => cases h
    case h_2 source hsource =>
      cases hcompile : r.compile source data with
      | error e =>
        rw [hcompile] at h
        cases h
      | ok mjml =>
        rw [hcompile] at h
        cases hmjml : r.mjml2html mjml with
        | error e =>
          change (r.mjml2html mjml >>= _) = _ at h
          rw [hmjml] at h
          cases h
        | ok html' =>
          change (r.mjml2html mjml >>= _) = _ at h
          rw [hmjml] at h
          cases h
          exact String.toList_ofList
  rw [htext]
  exact ⟨plain_plainText _, (plain_plainText _).plainText_eq⟩

/-- A renderer of one template, without variables. -/
def greeting : Renderer Unit where
  readFileSync path := if path = "greeting.mjml.hbs" then some "<mj-text>Hi</mj-text>" else none
  compile source _ := .ok source
  mjml2html _ := .ok "<html><STYLE>/* a > b */</style>\n <p>Hi  <b>you</b>!</p> </html>"

theorem plain_of_renderTemplate_greeting :
    ∃ html, renderTemplate greeting "greeting" () = .ok (html, "Hi you !")
      ∧ Plain "Hi you !".toList ∧ plainText "Hi you !".toList = "Hi you !".toList := by
  have h : renderTemplate greeting "greeting" () =
      .ok ("<html><STYLE>/* a > b */</style>\n <p>Hi  <b>you</b>!</p> </html>", "Hi you !") := by
    decide
  exact ⟨_, h, plain_of_renderTemplate h⟩

/-! ## The text of a document -/

/-- A text between tags. -/
def TextNode := { chars : List Char // '<' ∉ chars }

/-- A tag that does not begin like a style block. -/
structure TagNode where
  inner : List Char
  nonempty : inner ≠ []
  bracketless : ∀ c ∈ inner, c ≠ '<' ∧ c ≠ '>'
  other : Regex.startsWith sameLetter "style".toList inner = false

/-- A style block, which ends where it is first closed. -/
structure StyleNode where
  name : List Char
  attributes : List Char
  css : List Char
  close : List Char
  opens : Regex.startsWith sameLetter "<style".toList name = true ∧ name.length = 6
  bracketless : ∀ c ∈ attributes, c ≠ '>'
  closes : Regex.startsWith sameLetter "</style>".toList close = true ∧ close.length = 8
  inside : ∀ c s, c :: s <:+ css →
    Regex.startsWith sameLetter "</style>".toList (c :: s ++ close) = false

/-- What a document is made of. -/
inductive HtmlNode
  | text (t : TextNode)
  | tag (t : TagNode)
  | style (s : StyleNode)

namespace HtmlNode

/-- The node as it stands in the html. -/
def html : HtmlNode → List Char
  | text t => t.1
  | tag t => '<' :: (t.inner ++ ['>'])
  | style s => s.name ++ (s.attributes ++ '>' :: (s.css ++ s.close))

/-- What it says: a tag separates, a style block is not to be read. -/
def shown : HtmlNode → List Char
  | text t => t.1
  | tag _ => [' ']
  | style _ => []

/-- The node without its style block. -/
def unstyled : HtmlNode → List Char
  | style _ => []
  | n => n.html

end HtmlNode

variable {rest : List Char}

theorem styleBlocks_none {c : Char} {l : List Char} (h : c ≠ '<') :
    styleBlocks.matchAt (c :: l) = none := by
  refine Regex.block_none (eq_false_of_ne_true fun hstart => h ?_)
  obtain ⟨b, l', heq, -⟩ := startsWith_style hstart
  exact (List.cons.inj heq).1

theorem tags_none {c : Char} {l : List Char} (h : c ≠ '<') : tags.matchAt (c :: l) = none :=
  Regex.bracketed_none_of_not_opens (beq_false_of_ne h)

theorem not_sameLetter_style {a : Char} (ha : a ∈ "style".toList) : sameLetter a '>' = false := by
  have hall : ("style".toList.all fun b => ! sameLetter b '>') = true := by decide
  simpa using List.all_eq_true.mp hall a ha

/-- The style blocks go. -/
theorem styleBlocks_html (n : HtmlNode) :
    styleBlocks.replace [] (n.html ++ rest) = n.unstyled ++ styleBlocks.replace [] rest := by
  cases n with
  | text t =>
    refine Regex.replace_append fun c s hs => styleBlocks_none ?_
    rintro rfl
    exact t.2 (hs.subset List.mem_cons_self)
  | tag t =>
    refine Regex.replace_append fun c s hs => ?_
    rcases List.suffix_cons_iff.mp hs with heq | hs
    · obtain ⟨rfl, rfl⟩ := List.cons.inj heq
      refine Regex.block_none (eq_false_of_ne_true fun hstart => ?_)
      rw [List.append_assoc, List.singleton_append] at hstart
      have hname : Regex.startsWith sameLetter "style".toList (t.inner ++ '>' :: rest) = true := by
        have hword : "<style".toList = '<' :: "style".toList := rfl
        rw [hword, Regex.startsWith, Bool.and_eq_true] at hstart
        exact hstart.2
      have hinner := Regex.startsWith_of_append (fun _ => not_sameLetter_style) hname
      rw [t.other] at hinner
      cases hinner
    · refine styleBlocks_none ?_
      rintro rfl
      rcases List.mem_append.mp (hs.subset List.mem_cons_self) with hmem | hmem
      · exact (t.bracketless _ hmem).1 rfl
      · exact absurd hmem (by decide)
  | style s =>
    have hmatch : styleBlocks.matchAt ((HtmlNode.style s).html ++ rest)
        = some (HtmlNode.style s).html.length := by
      have hassoc : (HtmlNode.style s).html ++ rest
          = s.name ++ (s.attributes ++ '>' :: (s.css ++ (s.close ++ rest))) := by
        simp [HtmlNode.html]
      rw [hassoc]
      exact Regex.block_match s.opens.1 s.opens.2
        (fun a ha => beq_false_of_ne (s.bracketless a ha)) rfl s.closes.1 s.closes.2 s.inside
    rw [Regex.replace_some hmatch, List.drop_left]
    rfl

/-- And each tag becomes a blank. -/
theorem tags_unstyled (n : HtmlNode) :
    tags.replace [' '] (n.unstyled ++ rest) = n.shown ++ tags.replace [' '] rest := by
  cases n with
  | text t =>
    refine Regex.replace_append fun c s hs => tags_none ?_
    rintro rfl
    exact t.2 (hs.subset List.mem_cons_self)
  | tag t =>
    have hmatch : tags.matchAt ((HtmlNode.tag t).unstyled ++ rest)
        = some (t.inner.length + 2) := by
      have hassoc : (HtmlNode.tag t).unstyled ++ rest = '<' :: (t.inner ++ '>' :: rest) := by
        simp [HtmlNode.unstyled, HtmlNode.html]
      rw [hassoc]
      exact Regex.bracketed_match rfl rfl t.nonempty fun c hc =>
        beq_false_of_ne (t.bracketless c hc).2
    have hlength : t.inner.length + 2 = (HtmlNode.tag t).unstyled.length := by
      simp [HtmlNode.unstyled, HtmlNode.html]
    rw [Regex.replace_some hmatch, hlength, List.drop_left]
    rfl
  | style s => rfl

/-- **The words of an email.**  The plain text of a document has the words of its texts, where tags
separate words, and none of its style blocks. -/
theorem words_plainText (ns : List HtmlNode) :
    Regex.words isSpace (plainText (ns.flatMap HtmlNode.html))
      = Regex.words isSpace (ns.flatMap HtmlNode.shown) := by
  unfold plainText
  rw [Regex.replace_flatMap (fun n _ => styleBlocks_html n),
    Regex.replace_flatMap (fun n _ => tags_unstyled n), Regex.words_trim]
  exact Regex.words_replace_runs isSpace_blank _

/-- A style block with a bracket in its css. -/
def greetingStyle : StyleNode where
  name := "<STYLE".toList
  attributes := " media='print'".toList
  css := "a > b".toList
  close := "</style>".toList
  opens := by decide
  bracketless := by simp
  closes := by decide
  inside c s h := by
    have hall : ("a > b".toList.tails.all fun t => t.isEmpty
        || ! Regex.startsWith sameLetter "</style>".toList (t ++ "</style>".toList)) = true := by
      decide
    simpa using List.all_eq_true.mp hall (c :: s) ((List.mem_tails _ _).mpr h)

/-- A style block, a comment and two words, with a tag between them. -/
def greetingNodes : List HtmlNode :=
  [.style greetingStyle, .tag ⟨"!-- styled --".toList, by decide, by simp, by decide⟩,
    .text ⟨"Hi".toList, by decide⟩, .tag ⟨"br/".toList, by decide, by simp, by decide⟩,
    .text ⟨"you".toList, by decide⟩]

theorem words_plainText_greeting :
    Regex.words isSpace (plainText
        "<STYLE media='print'>a > b</style><!-- styled -->Hi<br/>you".toList)
      = ["Hi".toList, "you".toList] :=
  (words_plainText greetingNodes).trans (by decide)

end WorkPlatform.Notification
