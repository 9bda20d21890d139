import Curried.Proofs.Grammar.Glyph
import Curried.Proofs.Parser.Reading

/-!
# What parsers take, glyph by glyph

On the tokens of the standard rules a parser only sees glyphs.  `Takes`, `Passes` and `Refuses` say
what it does with a list of glyphs, whichever tokens they belong to.
-/

namespace Curried

/-- Tokens of the standard rules. -/
def Standard (tokens : List Token) : Prop := ∀ token ∈ tokens, token.Standard

/-- What the grammar sees of tokens. -/
def glyphs (tokens : List Token) : List Glyph := tokens.map Token.glyph

/-- Glyphs without white space in front. -/
def skip (text : List Glyph) : List Glyph := text.dropWhile Glyph.isBlank

@[simp]
theorem glyphs_nil : glyphs [] = [] := rfl

@[simp]
theorem glyphs_cons (token : Token) (tokens : List Token) :
    glyphs (token :: tokens) = token.glyph :: glyphs tokens := rfl

@[simp]
theorem length_glyphs (tokens : List Token) : (glyphs tokens).length = tokens.length :=
  List.length_map _

theorem Standard.of_suffix {tokens rest : List Token} (standard : Standard tokens)
    (suffix : rest <:+ tokens) : Standard rest :=
  fun token member => standard token (suffix.subset member)

theorem Standard.tail {token : Token} {tokens : List Token}
    (standard : Standard (token :: tokens)) : Standard tokens :=
  fun other member => standard other (.tail _ member)

theorem Standard.head {token : Token} {tokens : List Token}
    (standard : Standard (token :: tokens)) : token.Standard :=
  standard token (.head _)

@[simp]
theorem skip_blank (text : List Glyph) : skip (.blank :: text) = skip text := rfl

theorem skip_skip (text : List Glyph) : skip (skip text) = skip text := by
  induction text with
  | nil => rfl
  | cons first others ih =>
      cases blank : first.isBlank with
      | true => simpa [skip, blank] using ih
      | false => simp [skip, blank]

theorem length_skip_le (text : List Glyph) : (skip text).length ≤ text.length :=
  (List.dropWhile_suffix _).length_le

/-- Tokens that a test on glyphs passes over. -/
theorem glyphs_dropWhile {test : Token → Bool} {sees : Glyph → Bool} {tokens : List Token}
    (same : ∀ token ∈ tokens, test token = sees token.glyph) :
    glyphs (tokens.dropWhile test) = (glyphs tokens).dropWhile sees := by
  induction tokens with
  | nil => rfl
  | cons token tokens ih =>
      have rest := ih fun other member => same other (.tail _ member)
      have first := same token (.head _)
      cases seen : sees token.glyph with
      | true => simp [first, seen, rest]
      | false => simp [first, seen]

theorem glyphs_takeWhile {test : Token → Bool} {sees : Glyph → Bool} {tokens : List Token}
    (same : ∀ token ∈ tokens, test token = sees token.glyph) :
    glyphs (tokens.takeWhile test) = (glyphs tokens).takeWhile sees := by
  induction tokens with
  | nil => rfl
  | cons token tokens ih =>
      have rest := ih fun other member => same other (.tail _ member)
      have first := same token (.head _)
      cases seen : sees token.glyph with
      | true => simp [first, seen, rest]
      | false => simp [first, seen]

namespace Parser

variable {α β γ δ : Type} {turns depth : Nat} {text middle rest : List Glyph}

/-- The parser takes glyphs off the front of a text and yields the value. -/
def Takes (parser : Parser α) (turns depth : Nat) (text : List Glyph) (value : α)
    (rest : List Glyph) : Prop :=
  ∀ tokens, Standard tokens → glyphs tokens = text →
    ∃ behind, parser.read turns depth tokens = .taken value behind ∧ glyphs behind = rest

/-- The parser takes glyphs off the front of a text. -/
def Passes (parser : Parser α) (turns depth : Nat) (text rest : List Glyph) : Prop :=
  ∀ tokens, Standard tokens → glyphs tokens = text →
    ∃ value behind, parser.read turns depth tokens = .taken value behind ∧ glyphs behind = rest

/-- The parser refuses a text. -/
def Refuses (parser : Parser α) (turns depth : Nat) (text : List Glyph) : Prop :=
  ∀ tokens, Standard tokens → glyphs tokens = text → parser.read turns depth tokens = .refused

namespace Takes

variable {parser : Parser α} {other : Parser β} {value : α} {result : β}

theorem map [Blind parser] (takes : parser.Takes turns depth text value rest) (f : α → β) :
    (parser.map f).Takes turns depth text (f value) rest := by
  intro tokens standard spelt
  obtain ⟨behind, reads, same⟩ := takes tokens standard spelt
  exact ⟨behind, by rw [read_map, reads, Verdict.map_taken], same⟩

theorem pair [Blind parser] [Blind other] (first : parser.Takes turns depth text value middle)
    (second : other.Takes turns depth middle result rest) :
    (parser.pair other).Takes turns depth text (value, result) rest := by
  intro tokens standard spelt
  obtain ⟨between, reads, same⟩ := first tokens standard spelt
  obtain ⟨behind, goes, last⟩ :=
    second between (standard.of_suffix (Blind.suffix reads)) same
  refine ⟨behind, ?_, last⟩
  rw [read_pair, reads, Verdict.andThen_taken, goes, Verdict.map_taken]

theorem keepLeft [Blind parser] [Blind other] (first : parser.Takes turns depth text value middle)
    (second : other.Passes turns depth middle rest) :
    (parser.keepLeft other).Takes turns depth text value rest := by
  intro tokens standard spelt
  obtain ⟨between, reads, same⟩ := first tokens standard spelt
  obtain ⟨_, behind, goes, last⟩ :=
    second between (standard.of_suffix (Blind.suffix reads)) same
  refine ⟨behind, ?_, last⟩
  rw [read_keepLeft, reads, Verdict.andThen_taken, goes, Verdict.map_taken]

theorem keepRight [Blind parser] [Blind other] (first : parser.Passes turns depth text middle)
    (second : other.Takes turns depth middle result rest) :
    (parser.keepRight other).Takes turns depth text result rest := by
  intro tokens standard spelt
  obtain ⟨_, between, reads, same⟩ := first tokens standard spelt
  obtain ⟨behind, goes, last⟩ :=
    second between (standard.of_suffix (Blind.suffix reads)) same
  refine ⟨behind, ?_, last⟩
  rw [read_keepRight, reads, Verdict.andThen_taken, goes]

theorem group {opening : Parser γ} {closing : Parser δ} [Blind parser] [Blind opening]
    [Blind closing] {last : List Glyph} (opens : opening.Passes turns depth text middle)
    (inner : parser.Takes turns depth middle value last)
    (closes : closing.Passes turns depth last rest) :
    (Parser.group parser opening closing).Takes turns depth text value rest :=
  keepLeft (keepRight opens inner) closes

/-- Brackets around a parser whose value another one is made of. -/
theorem group_map {opening : Parser γ} {closing : Parser δ} [Blind parser] [Blind opening]
    [Blind closing] {last : List Glyph} {f : α → β} (opens : opening.Passes turns depth text middle)
    (inner : (parser.map f).Takes turns depth middle result last)
    (closes : closing.Passes turns depth last rest) :
    ((Parser.group parser opening closing).map f).Takes turns depth text result rest := by
  intro tokens standard spelt
  obtain ⟨bracket, between, opened, same⟩ := opens tokens standard spelt
  have between_standard := standard.of_suffix (Blind.suffix opened)
  obtain ⟨left, goes, same⟩ := inner between between_standard same
  have left_standard := between_standard.of_suffix (Blind.suffix goes)
  rw [read_map] at goes
  obtain ⟨value, reads, rfl⟩ := Verdict.taken_of_map goes
  obtain ⟨_, behind, closed, same⟩ := closes left left_standard same
  refine ⟨behind, ?_, same⟩
  rw [read_map, read_group, opened, Verdict.andThen_taken, reads, Verdict.andThen_taken, closed,
    Verdict.map_taken, Verdict.map_taken]

theorem optional [Blind parser] (takes : parser.Takes turns depth text value rest) :
    parser.optional.Takes turns depth text (some value) rest := by
  intro tokens standard spelt
  obtain ⟨behind, reads, same⟩ := takes tokens standard spelt
  exact ⟨behind, by rw [read_optional, reads]; rfl, same⟩

theorem none [Blind parser] (refuses : parser.Refuses turns depth text) :
    parser.optional.Takes turns depth text none text := by
  intro tokens standard spelt
  exact ⟨tokens, by rw [read_optional, refuses tokens standard spelt]; rfl, spelt⟩

theorem filterMap [Blind parser] (takes : parser.Takes turns depth text value rest)
    {f : α → Option β} (kept : f value = some result) (expected : String) :
    (parser.filterMap f expected).Takes turns depth text result rest := by
  intro tokens standard spelt
  obtain ⟨behind, reads, same⟩ := takes tokens standard spelt
  exact ⟨behind, by rw [read_filterMap, reads, keepSome, kept], same⟩

theorem noted [Blind parser] (takes : parser.Takes turns depth text value rest)
    (describe : α → String) : (parser.noted describe).Takes turns depth text value rest := by
  intro tokens standard spelt
  obtain ⟨behind, reads, same⟩ := takes tokens standard spelt
  exact ⟨behind, by rw [read_noted, reads], same⟩

theorem recorded [Blind parser] (takes : parser.Takes turns depth text value rest)
    (label : String) : (Parser.recorded label parser).Takes turns depth text value rest := by
  intro tokens standard spelt
  obtain ⟨behind, reads, same⟩ := takes tokens standard spelt
  exact ⟨behind, by rw [read_recorded, reads], same⟩

theorem recordedWhen [Blind parser] (takes : parser.Takes turns depth text value rest)
    (label : String) (keep : α → Bool) :
    (Parser.recordedWhen label keep parser).Takes turns depth text value rest := by
  intro tokens standard spelt
  obtain ⟨behind, reads, same⟩ := takes tokens standard spelt
  exact ⟨behind, by rw [read_recordedWhen, reads], same⟩

/-- The first alternative takes the text. -/
theorem choice_head {parsers : List (Parser α)} [Blind parser] [AllBlind parsers]
    (takes : parser.Takes turns depth text value rest) :
    (choice (parser :: parsers)).Takes turns depth text value rest := by
  intro tokens standard spelt
  obtain ⟨behind, reads, same⟩ := takes tokens standard spelt
  exact ⟨behind, by rw [read_choice, readFirst_cons, reads, Verdict.orElse_taken], same⟩

/-- A later alternative takes the text. -/
theorem choice_tail {parsers : List (Parser α)} [Blind parser] [AllBlind parsers]
    (refuses : parser.Refuses turns depth text)
    (takes : (choice parsers).Takes turns depth text value rest) :
    (choice (parser :: parsers)).Takes turns depth text value rest := by
  intro tokens standard spelt
  obtain ⟨behind, reads, same⟩ := takes tokens standard spelt
  refine ⟨behind, ?_, same⟩
  rw [read_choice, readFirst_cons, refuses tokens standard spelt, Verdict.orElse_refused,
    ← read_choice, reads]

theorem pure (value : α) (text : List Glyph) :
    (Pure.pure value : Parser α).Takes turns depth text value text :=
  fun tokens _ spelt => ⟨tokens, rfl, spelt⟩

theorem bind {next : α → Parser β} [Blind parser] [∀ value, Blind (next value)]
    (first : parser.Takes turns depth text value middle)
    (second : (next value).Takes turns depth middle result rest) :
    (parser >>= next).Takes turns depth text result rest := by
  intro tokens standard spelt
  obtain ⟨between, reads, same⟩ := first tokens standard spelt
  obtain ⟨behind, goes, last⟩ := second between (standard.of_suffix (Blind.suffix reads)) same
  exact ⟨behind, by rw [read_bind, reads, Verdict.andThen_taken, goes], last⟩

/-! Loops end where their next turn is refused. -/

theorem repeated_nil [Blind parser] (refuses : parser.Refuses turns depth text) (more : Nat) :
    (repeated parser (more + 1)).Takes turns depth text [] text := by
  intro tokens standard spelt
  exact ⟨tokens, by rw [read_repeated, readRepeated, refuses tokens standard spelt, goOn], spelt⟩

theorem repeated_cons [Blind parser] {values : List α} {more : Nat}
    (first : parser.Takes turns depth text value middle) (shorter : middle.length < text.length)
    (others : (repeated parser more).Takes turns depth middle values rest) :
    (repeated parser (more + 1)).Takes turns depth text (value :: values) rest := by
  intro tokens standard spelt
  obtain ⟨between, reads, same⟩ := first tokens standard spelt
  obtain ⟨behind, goes, last⟩ := others between (standard.of_suffix (Blind.suffix reads)) same
  have moved : between.length ≠ tokens.length := by
    rw [← length_glyphs between, ← length_glyphs tokens, same, spelt]
    exact Nat.ne_of_lt shorter
  refine ⟨behind, ?_, last⟩
  rw [read_repeated] at goes ⊢
  rw [readRepeated, reads, goOn, if_neg moved, goes, Verdict.map_taken]

section
variable {element : Parser α} {delimiter : Parser δ} [Blind element] [Blind delimiter]

theorem followers_nil (refuses : delimiter.Refuses turns depth text) (more : Nat) :
    ((followers element delimiter (more + 1)).map (List.filterMap Interleaved.item?)).Takes turns
      depth text [] text := by
  have stop : (delimiter.optional >>= follower element (followers element delimiter more)).Takes
    turns depth text [] text := bind (.none refuses) (.pure [] text)
  rw [followers_succ]
  exact stop.map _

theorem followers_cons {values : List α} {last : List Glyph} {more : Nat}
    (comes : delimiter.Passes turns depth text middle)
    (first : element.Takes turns depth middle value last)
    (others : ((followers element delimiter more).map (List.filterMap Interleaved.item?)).Takes
      turns depth last values rest) :
    ((followers element delimiter (more + 1)).map (List.filterMap Interleaved.item?)).Takes turns
      depth text (value :: values) rest := by
  intro tokens standard spelt
  obtain ⟨mark, between, delimits, same⟩ := comes tokens standard spelt
  have between_standard := standard.of_suffix (Blind.suffix delimits)
  obtain ⟨behind, reads, same⟩ := first between between_standard same
  obtain ⟨left, goes, same⟩ := others behind (between_standard.of_suffix (Blind.suffix reads)) same
  rw [read_map] at goes
  obtain ⟨pieces, again, rfl⟩ := Verdict.taken_of_map goes
  refine ⟨left, ?_, same⟩
  rw [read_map, read_followers_succ, delimits, orNone, Verdict.andThen_taken, follower, read_bind,
    reads, Verdict.andThen_taken, read_bind, again, Verdict.andThen_taken, read_pure]
  rfl

theorem interleaved_nil (refuses : element.Refuses turns depth text) :
    ((interleaved element delimiter true).map (List.filterMap Interleaved.item?)).Takes turns depth
      text [] text := by
  have stop : (element.optional >>= behindFirst element delimiter).Takes turns depth text [] text :=
    bind (.none refuses) (.pure [] text)
  rw [interleaved_eq, if_pos rfl]
  exact stop.map _

theorem interleaved_cons {values : List α} (first : element.Takes turns depth text value middle)
    (others : ((followers element delimiter turns).map (List.filterMap Interleaved.item?)).Takes
      turns depth middle values rest) :
    ((interleaved element delimiter true).map (List.filterMap Interleaved.item?)).Takes turns depth
      text (value :: values) rest := by
  intro tokens standard spelt
  obtain ⟨between, reads, same⟩ := first tokens standard spelt
  obtain ⟨left, goes, same⟩ := others between (standard.of_suffix (Blind.suffix reads)) same
  rw [read_map] at goes
  obtain ⟨pieces, again, rfl⟩ := Verdict.taken_of_map goes
  refine ⟨left, ?_, same⟩
  rw [read_map, read_interleaved_true, reads, orNone, Verdict.andThen_taken, behindFirst, read_bind,
    read_withTurns, again, Verdict.andThen_taken, read_pure]
  rfl

end

section
variable {operand : Parser α} {operator : Parser (Joint α × α)} [Blind operand] [Blind operator]

theorem links_nil (refuses : operator.Refuses turns depth text) (more : Nat) :
    (links operand operator (more + 1)).Takes turns depth text [] text := by
  rw [links_succ]
  exact bind (.none refuses) (.pure [] text)

theorem links_cons {joint : Joint α} {sign : α} {pieces : List (Link α)} {last : List Glyph}
    {more : Nat} (comes : operator.Takes turns depth text (joint, sign) middle)
    (first : operand.Takes turns depth middle value last)
    (others : (links operand operator more).Takes turns depth last pieces rest) :
    (links operand operator (more + 1)).Takes turns depth text (⟨joint, sign, value⟩ :: pieces)
      rest := by
  rw [links_succ]
  exact bind (.optional comes) (.bind first (.bind others (.pure _ rest)))

end

end Takes

theorem Passes.map {parser : Parser α} [Blind parser]
    (passes : parser.Passes turns depth text rest) (f : α → β) :
    (parser.map f).Passes turns depth text rest := by
  intro tokens standard spelt
  obtain ⟨value, behind, reads, same⟩ := passes tokens standard spelt
  exact ⟨f value, behind, by rw [read_map, reads, Verdict.map_taken], same⟩

theorem Passes.pair {parser : Parser α} {other : Parser β} [Blind parser] [Blind other]
    (first : parser.Passes turns depth text middle)
    (second : other.Passes turns depth middle rest) :
    (parser.pair other).Passes turns depth text rest := by
  intro tokens standard spelt
  obtain ⟨value, between, reads, same⟩ := first tokens standard spelt
  obtain ⟨result, behind, goes, last⟩ :=
    second between (standard.of_suffix (Blind.suffix reads)) same
  refine ⟨(value, result), behind, ?_, last⟩
  rw [read_pair, reads, Verdict.andThen_taken, goes, Verdict.map_taken]

theorem Passes.keepLeft {parser : Parser α} {other : Parser β} [Blind parser] [Blind other]
    (first : parser.Passes turns depth text middle)
    (second : other.Passes turns depth middle rest) :
    (parser.keepLeft other).Passes turns depth text rest :=
  (first.pair second).map _

namespace Refuses

variable {parser : Parser α} {other : Parser β}

theorem map [Blind parser] (refuses : parser.Refuses turns depth text) (f : α → β) :
    (parser.map f).Refuses turns depth text := fun tokens standard spelt => by
  rw [read_map, refuses tokens standard spelt, Verdict.map_refused]

theorem noted [Blind parser] (refuses : parser.Refuses turns depth text)
    (describe : α → String) : (parser.noted describe).Refuses turns depth text :=
  fun tokens standard spelt => by rw [read_noted, refuses tokens standard spelt]

theorem recorded [Blind parser] (refuses : parser.Refuses turns depth text) (label : String) :
    (Parser.recorded label parser).Refuses turns depth text :=
  fun tokens standard spelt => by rw [read_recorded, refuses tokens standard spelt]

theorem pair [Blind parser] [Blind other] (refuses : parser.Refuses turns depth text) :
    (parser.pair other).Refuses turns depth text := fun tokens standard spelt => by
  rw [read_pair, refuses tokens standard spelt, Verdict.andThen_refused]

theorem keepLeft [Blind parser] [Blind other] (refuses : parser.Refuses turns depth text) :
    (parser.keepLeft other).Refuses turns depth text :=
  refuses.pair.map _

theorem keepRight [Blind parser] [Blind other] (refuses : parser.Refuses turns depth text) :
    (parser.keepRight other).Refuses turns depth text :=
  refuses.pair.map _

/-- A sequence is refused if its second part is. -/
theorem keepRight_of_second [Blind parser] [Blind other]
    (passes : parser.Passes turns depth text middle)
    (refuses : other.Refuses turns depth middle) :
    (parser.keepRight other).Refuses turns depth text := by
  intro tokens standard spelt
  obtain ⟨value, between, reads, same⟩ := passes tokens standard spelt
  have stands := standard.of_suffix (Blind.suffix reads)
  rw [read_keepRight, reads, Verdict.andThen_taken, refuses between stands same]

theorem group {opening : Parser γ} {closing : Parser δ} [Blind parser] [Blind opening]
    [Blind closing] (refuses : opening.Refuses turns depth text) :
    (Parser.group parser opening closing).Refuses turns depth text :=
  refuses.keepRight.keepLeft

theorem choice_cons {parsers : List (Parser α)} [Blind parser] [AllBlind parsers]
    (first : parser.Refuses turns depth text) (others : (choice parsers).Refuses turns depth text) :
    (choice (parser :: parsers)).Refuses turns depth text := fun tokens standard spelt => by
  rw [read_choice, readFirst_cons, first tokens standard spelt, Verdict.orElse_refused,
    ← read_choice, others tokens standard spelt]

theorem choice_nil : (choice ([] : List (Parser α))).Refuses turns depth text :=
  fun tokens _ _ => by rw [read_choice, readFirst_nil]

end Refuses

/-! ### Parsers of one token -/

/-- The parser takes the next token if its glyph passes a test. -/
def Sees (parser : Parser Token) (test : Glyph → Bool) : Prop :=
  ∀ turns depth tokens, Standard tokens →
    parser.read turns depth tokens = takeNext (fun token => test token.glyph) tokens

namespace Sees

variable {parser : Parser Token} {test : Glyph → Bool}

theorem passes (sees : parser.Sees test) {glyph : Glyph} (fits : test glyph = true) :
    parser.Passes turns depth (glyph :: rest) rest := by
  intro tokens standard spelt
  obtain ⟨token, behind, rfl, rfl, rfl⟩ := List.map_eq_cons_iff.1 spelt
  exact ⟨token, behind, by simp [sees turns depth _ standard, takeNext, fits], rfl⟩

theorem refuses (sees : parser.Sees test) (other : ∀ glyph ∈ text.head?, test glyph = false) :
    parser.Refuses turns depth text := by
  intro tokens standard spelt
  rw [sees turns depth tokens standard]
  subst spelt
  cases tokens with
  | nil => rfl
  | cons token behind =>
      have unfit : test token.glyph = false := other token.glyph rfl
      simp [takeNext, unfit]

theorem spelt_of_taken (sees : parser.Sees test) {tokens behind : List Token} {token : Token}
    (standard : Standard tokens) (takes : parser.read turns depth tokens = .taken token behind) :
    tokens = token :: behind ∧ test token.glyph = true := by
  rw [sees turns depth tokens standard] at takes
  cases tokens with
  | nil => simp [takeNext] at takes
  | cons first others =>
      simp only [takeNext] at takes
      split at takes
      · rename_i fits
        obtain ⟨rfl, rfl⟩ : first = token ∧ others = behind := by simpa using takes
        exact ⟨rfl, fits⟩
      · simp at takes

theorem of_takeNext {test' : Token → Bool}
    (reads : ∀ turns depth tokens, parser.read turns depth tokens = takeNext test' tokens)
    (same : ∀ token : Token, token.Standard → test' token = test token.glyph) :
    parser.Sees test := by
  intro turns depth tokens standard
  rw [reads]
  cases tokens with
  | nil => rfl
  | cons token behind => simp [takeNext, same token standard.head]

end Sees

/-- Repeating the parser of one token takes all tokens in front that pass its test. -/
theorem readRepeated_next {parser : Parser Token} {test : Token → Bool}
    (reads : ∀ tokens, parser.read turns depth tokens = takeNext test tokens) {more : Nat}
    {tokens : List Token} (enough : tokens.length < more) :
    readRepeated parser turns depth more tokens =
      .taken (tokens.takeWhile test) (tokens.dropWhile test) := by
  induction tokens generalizing more with
  | nil =>
      obtain ⟨more, rfl⟩ := Nat.exists_eq_succ_of_ne_zero (Nat.ne_of_gt enough)
      simp [readRepeated, reads, takeNext, goOn]
  | cons token tokens ih =>
      obtain ⟨more, rfl⟩ := Nat.exists_eq_succ_of_ne_zero (Nat.ne_of_gt (Nat.lt_of_le_of_lt
        (Nat.zero_le _) enough))
      have rest := ih (Nat.lt_of_succ_lt_succ enough)
      cases fits : test token with
      | true => simp [readRepeated, reads, takeNext, goOn, fits, rest]
      | false => simp [readRepeated, reads, takeNext, goOn, fits]

/-- Whatever the bound on turns, it takes nothing else. -/
theorem eq_of_readRepeated_next {parser : Parser Token} {test : Token → Bool}
    (reads : ∀ tokens, parser.read turns depth tokens = takeNext test tokens) {more : Nat}
    {tokens behind taken : List Token}
    (takes : readRepeated parser turns depth more tokens = .taken taken behind) :
    taken = tokens.takeWhile test ∧ behind = tokens.dropWhile test := by
  induction tokens generalizing more taken behind with
  | nil =>
      cases more with
      | zero => simp [readRepeated] at takes
      | succ more =>
          simp only [readRepeated, reads, takeNext, goOn, Verdict.taken.injEq] at takes
          exact ⟨takes.1.symm, takes.2.symm⟩
  | cons token tokens ih =>
      cases more with
      | zero => simp [readRepeated] at takes
      | succ more =>
          cases fits : test token with
          | true =>
              simp only [readRepeated, reads, takeNext, goOn, fits, if_true, List.length_cons,
                Nat.ne_of_lt (Nat.lt_succ_self _), if_false] at takes
              obtain ⟨others, reads_others, rfl⟩ := Verdict.taken_of_map takes
              obtain ⟨rfl, rfl⟩ := ih reads_others
              simp [fits]
          | false =>
              simp only [readRepeated, reads, takeNext, goOn, fits, Bool.false_eq_true, if_false,
                Verdict.taken.injEq] at takes
              obtain ⟨rfl, rfl⟩ := takes
              simp [fits]

end Parser

end Curried
