import GraphScript.Proofs.Program.Reading

namespace GraphScript

/-!
# Readers that accept what is ahead

`Reader.Accepts` says that a reader, from a given place, gives a good tree and
reports nothing, and what is ahead then. The readers of single tokens and of
lists are shown to accept what they are for, in front of every token that
cannot go on with it.
-/

open Spellings

namespace Token.Kind

/-- The first of the kinds ahead, which is the end of the text if there is none. -/
def front
    (kinds : List Token.Kind) :
    Token.Kind :=
  kinds.headD .endOfFile

/-- Behind the last token stands the end of the text. -/
@[simp] theorem front_nil :
    front [] = .endOfFile :=
  rfl

/-- The first of some kinds stands in front. -/
@[simp] theorem front_cons
    (kind : Token.Kind)
    (kinds : List Token.Kind) :
    front (kind :: kinds) = kind :=
  rfl

/-- A mark is the one expected if it is the same. -/
@[simp] theorem isMark_mark
    (sign expected : Mark) :
    (Token.Kind.mark sign).isMark expected = decide (sign = expected) :=
  rfl

/-- No keyword is a mark. -/
@[simp] theorem isMark_keyword
    (word : Keyword)
    (expected : Mark) :
    (Token.Kind.keyword word).isMark expected = false :=
  rfl

end Token.Kind

open Token.Kind

namespace Spellings

/-- Further members start with their mark, if there are any. -/
theorem further_eq_nil_or_cons
    {sign : Mark}
    {members : List Spellings}
    {kinds : List Token.Kind}
    (spelled : kinds ∈ further sign members) :
    kinds = [] ∨ ∃ more, kinds = .mark sign :: more := by
  cases members with
  | nil =>
      exact .inl spelled
  | cons member members =>
      rw [further_cons, mul_assoc] at spelled
      obtain ⟨_, rfl, more, _, rfl⟩ := spelled
      exact .inr ⟨more, rfl⟩

/-- A name is no mark, whether it is a reserved word or not. -/
theorem front_anyName
    {name : String}
    {kinds : List Token.Kind}
    (spelled : kinds ∈ anyName name)
    (rest : List Token.Kind)
    (sign : Mark) :
    (front (kinds ++ rest)).isMark sign = false := by
  rcases spelled with rfl | ⟨word, _, rfl⟩
  · rfl
  · rfl

end Spellings

namespace Cursor

/-- The next token is the first one ahead. -/
theorem kind_eq_front
    (cursor : Cursor) :
    cursor.kind = front cursor.kinds := by
  rcases cursor with ⟨pending, _, _, _⟩
  cases pending <;> rfl

/-- The kind at a cursor is the first of the kinds ahead. -/
theorem kind_of_kinds
    {cursor : Cursor}
    {kinds : List Token.Kind}
    (ahead : cursor.kinds = kinds) :
    cursor.kind = front kinds := by
  rw [kind_eq_front, ahead]

/-- A kind ahead belongs to a token ahead. -/
theorem pending_of_kinds
    {cursor : Cursor}
    {kind : Token.Kind}
    {kinds : List Token.Kind}
    (ahead : cursor.kinds = kind :: kinds) :
    ∃ token rest,
      cursor.pending = token :: rest ∧
        token.kind = kind ∧
        rest.map (·.kind) = kinds :=
  List.map_eq_cons_iff.1 ahead

/-- Behind the first kind ahead come the others. -/
theorem kinds_advance
    {cursor : Cursor}
    {kind : Token.Kind}
    {kinds : List Token.Kind}
    (ahead : cursor.kinds = kind :: kinds) :
    cursor.advance.kinds = kinds := by
  obtain ⟨token, rest, pending, _, others⟩ := pending_of_kinds ahead
  simpa [Cursor.kinds, advance, pending] using others

end Cursor

namespace Reader

variable {α β : Type}

/--
Whether a reader, from a place, gives something good, reports nothing, and then
has `rest` ahead.
-/
def Accepts
    (reader : Reader α)
    (cursor : Cursor)
    (rest : List Token.Kind)
    (good : α → Prop) :
    Prop :=
  ∃ value next,
    reader.run cursor = (some value, next) ∧
      good value ∧
      next.kinds = rest ∧
      next.faults = cursor.faults

namespace Accepts

variable {cursor : Cursor} {rest : List Token.Kind}

/-- What is given without reading is accepted where it is good. -/
theorem pure
    {value : α}
    {good : α → Prop}
    (ahead : cursor.kinds = rest)
    (isGood : good value) :
    (Pure.pure value : Reader α).Accepts cursor rest good :=
  ⟨value, cursor, rfl, isGood, ahead, rfl⟩

/--
Two readers in a row accept, if the second one accepts what the first one leaves.
-/
theorem bind
    {first : Reader α}
    {second : α → Reader β}
    {middle : List Token.Kind}
    {good : α → Prop}
    {better : β → Prop}
    (acceptsFirst : first.Accepts cursor middle good)
    (acceptsSecond :
      ∀ value next,
        good value →
        next.kinds = middle →
        next.faults = cursor.faults →
        (second value).Accepts next rest better) :
    (first >>= second).Accepts cursor rest better := by
  obtain ⟨value, next, ran, isGood, ahead, silent⟩ := acceptsFirst
  obtain ⟨final, last, ranSecond, isBetter, left, silentSecond⟩ :=
    acceptsSecond value next isGood ahead silent
  refine ⟨final, last, ?_, isBetter, left, silentSecond.trans silent⟩
  rw [run_bind, ran]
  exact ranSecond

/-- Looking at the kind ahead takes nothing. -/
theorem peek
    {second : Token.Kind → Reader β}
    {good : β → Prop}
    {kind : Token.Kind}
    (ahead : cursor.kind = kind)
    (accepts : (second kind).Accepts cursor rest good) :
    (Reader.peek >>= second).Accepts cursor rest good := by
  subst ahead
  exact accepts

/-- Stepping over the kind ahead is accepted. -/
theorem advance
    {kind : Token.Kind}
    (ahead : cursor.kinds = kind :: rest) :
    Reader.advance.Accepts cursor rest fun _ => True :=
  ⟨cursor.span, cursor.advance, rfl, trivial,
    Cursor.kinds_advance ahead, Cursor.faults_advance cursor⟩

/-- A single token becomes a tree. -/
theorem token
    {kind : Token.Kind}
    {tree : Span → β}
    {good : β → Prop}
    (ahead : cursor.kinds = kind :: rest)
    (isGood : ∀ span, good (tree span)) :
    (Reader.advance >>= fun span =>
      (Pure.pure (tree span) : Reader β)).Accepts cursor rest good :=
  (advance ahead).bind fun span _ _ left _ => pure left (isGood span)

/-- Asking for a span takes nothing. -/
theorem spanFrom
    {start : Span}
    {second : Span → Reader β}
    {good : β → Prop}
    (accepts : ∀ span, (second span).Accepts cursor rest good) :
    (Reader.spanFrom start >>= second).Accepts cursor rest good :=
  accepts (start.merge cursor.previous)

/-- What is good enough is good. -/
theorem mono
    {reader : Reader α}
    {good better : α → Prop}
    (accepts : reader.Accepts cursor rest better)
    (weaker : ∀ value, better value → good value) :
    reader.Accepts cursor rest good := by
  obtain ⟨value, next, ran, isBetter, ahead, silent⟩ := accepts
  exact ⟨value, next, ran, weaker value isBetter, ahead, silent⟩

end Accepts

/-! ## Single tokens -/

section Tokens

variable {cursor : Cursor} {rest kinds : List Token.Kind}

/-- A mark ahead is accepted. -/
theorem mark_accepts
    {sign : Mark}
    (ahead : cursor.kinds = .mark sign :: rest) :
    (mark sign).Accepts cursor rest fun _ => True := by
  refine .peek (Cursor.kind_of_kinds ahead) ?_
  rw [if_pos (by simp)]
  exact .advance ahead

/-- A closing mark ahead is accepted, whatever place it closes. -/
theorem closing_accepts
    {sign : Mark}
    {opening : Span}
    (ahead : cursor.kinds = .mark sign :: rest) :
    (closing sign opening).Accepts cursor rest fun _ => True := by
  refine .peek (Cursor.kind_of_kinds ahead) ?_
  rw [if_pos (by simp)]
  exact .advance ahead

/-- A keyword ahead is accepted. -/
theorem keyword_accepts
    {word : Keyword}
    (ahead : cursor.kinds = .keyword word :: rest) :
    (keyword word).Accepts cursor rest fun _ => True := by
  refine .peek (Cursor.kind_of_kinds ahead) ?_
  simp only [front_cons, if_true]
  exact .advance ahead

/-- An identifier ahead is accepted with its name. -/
theorem identifier_accepts
    {name : String}
    (ahead : cursor.kinds = .identifier name :: rest) :
    identifier.Accepts cursor rest fun read => read.name = name := by
  exact .peek (Cursor.kind_of_kinds ahead) (.token ahead fun _ => rfl)

/-- Any spelling of a name is accepted with that name. -/
theorem anyName_accepts
    {name : String}
    (spelled : kinds ∈ Spellings.anyName name)
    (ahead : cursor.kinds = kinds ++ rest) :
    Reader.anyName.Accepts cursor rest fun read => read.name = name := by
  rcases spelled with rfl | ⟨word, rfl, rfl⟩
  · exact .peek (Cursor.kind_of_kinds ahead) (.token ahead fun _ => rfl)
  · exact .peek (Cursor.kind_of_kinds ahead) (.token ahead fun _ => rfl)

end Tokens

/-! ## Lists -/

section Lists

variable {sign : Mark} {stop : Token.Kind → Bool} {member : Reader α}

/-- A run of further members ends where its sign does not stand. -/
theorem furtherRun_of_end
    {cursor : Cursor}
    (notSign : cursor.kind.isMark sign = false) :
    furtherRun sign stop member cursor = (some [], cursor) := by
  rw [furtherRun]
  split
  · rfl
  · next token rest ahead =>
    have kind : cursor.kind = token.kind := by
      simp [Cursor.kind, ahead]
    rw [if_neg (by simp [← kind, notSign])]

/-- A mark before a token that stops the list is stepped over. -/
theorem furtherRun_of_stop
    {cursor : Cursor}
    (isSign : cursor.kind = .mark sign)
    (stops : stop cursor.advance.kind = true) :
    furtherRun sign stop member cursor = (some [], cursor.advance) := by
  have inText : cursor.kind ≠ .endOfFile := by
    simp [isSign]
  obtain ⟨token, rest, ahead, kind⟩ := Cursor.pending_of_kind inText
  rw [furtherRun]
  split
  · next none =>
    simp [none] at ahead
  · next first others pending =>
    obtain ⟨rfl, rfl⟩ := List.cons.inj (pending.symm.trans ahead)
    rw [if_pos (by simp [kind, isSign]), if_pos stops]

/-- A member behind a mark is read, and so are the ones behind it. -/
theorem furtherRun_of_member
    {cursor next last : Cursor}
    {value : α}
    {values : List α}
    (isSign : cursor.kind = .mark sign)
    (goesOn : stop cursor.advance.kind = false)
    (ran : member.run cursor.advance = (some value, next))
    (ranOthers :
      furtherRun sign stop member next = (some values, last)) :
    furtherRun sign stop member cursor =
      (some (value :: values), last) := by
  have inText : cursor.kind ≠ .endOfFile := by
    simp [isSign]
  obtain ⟨token, rest, ahead, kind⟩ := Cursor.pending_of_kind inText
  rw [furtherRun]
  split
  · next none =>
    simp [none] at ahead
  · next first others pending =>
    obtain ⟨rfl, rfl⟩ := List.cons.inj (pending.symm.trans ahead)
    rw [if_pos (by simp [kind, isSign]), if_neg (by simp [goesOn])]
    split
    · next failed =>
      simp [ran] at failed
    · next found middle ranFound =>
      obtain ⟨⟨⟩, ⟨⟩⟩ := Prod.mk.inj (ran.symm.trans ranFound)
      rw [ranOthers]

/--
The further members of a list are read up to what follows the list.

`tail` is a mark behind the last member, which a token that stops the list has
to follow. Each member is read in front of what `follow` allows.
-/
theorem further_accepts
    {γ : Type}
    {spelled : α → Spellings}
    {view : α → γ}
    (follow : List Token.Kind → Prop)
    (tail : List Token.Kind)
    (accepts :
      ∀ {tree kinds rest cursor},
        kinds ∈ spelled tree →
        follow rest →
        cursor.kinds = kinds ++ rest →
        member.Accepts cursor rest fun value => view value = view tree)
    (goesOn :
      ∀ {tree kinds} rest,
        kinds ∈ spelled tree →
        stop (front (kinds ++ rest)) = false)
    (followsSign : ∀ rest, follow (.mark sign :: rest))
    {trees : List α}
    {kinds rest : List Token.Kind}
    (spelledAll : kinds ∈ Spellings.further sign (trees.map spelled))
    (ends :
      tail = [] ∧ follow rest ∧ (front rest).isMark sign = false ∨
        tail = [.mark sign] ∧ stop (front rest) = true)
    {cursor : Cursor}
    (ahead : cursor.kinds = kinds ++ (tail ++ rest)) :
    (Reader.further sign stop member).Accepts cursor rest fun values =>
      values.map view = trees.map view := by
  induction trees generalizing kinds cursor with
  | nil =>
      cases spelledAll
      rcases ends with ⟨rfl, _, notSign⟩ | ⟨rfl, stops⟩
      · exact ⟨[], cursor,
          furtherRun_of_end (by rwa [Cursor.kind_of_kinds ahead]),
          rfl, ahead, rfl⟩
      · have left := Cursor.kinds_advance ahead
        exact ⟨[], cursor.advance,
          furtherRun_of_stop (Cursor.kind_of_kinds ahead)
            (by rwa [Cursor.kind_of_kinds left]),
          rfl, left, Cursor.faults_advance cursor⟩
  | cons tree trees inductionHypothesis =>
      rw [List.map_cons, further_cons, mul_assoc] at spelledAll
      obtain ⟨_, rfl, _, ⟨first, spells, others, spellsOthers, rfl⟩, rfl⟩ :=
        spelledAll
      simp only [List.cons_append, List.nil_append,
        List.append_assoc] at ahead
      have aheadFirst := Cursor.kinds_advance ahead
      have followed : follow (others ++ (tail ++ rest)) := by
        rcases further_eq_nil_or_cons spellsOthers with rfl | ⟨more, rfl⟩
        · rcases ends with ⟨rfl, follows, _⟩ | ⟨rfl, _⟩
          · exact follows
          · exact followsSign rest
        · exact followsSign _
      obtain ⟨value, next, ran, same, aheadOthers, silent⟩ :=
        accepts spells followed aheadFirst
      obtain ⟨values, last, ranOthers, sameOthers, left, silentOthers⟩ :=
        inductionHypothesis spellsOthers aheadOthers
      refine ⟨value :: values, last,
        furtherRun_of_member (Cursor.kind_of_kinds ahead) ?_ ran ranOthers,
        ?_, left, ?_⟩
      · rw [Cursor.kind_of_kinds aheadFirst]
        exact goesOn _ spells
      · simp only [List.map_cons, same, sameOthers]
      · rw [silentOthers, silent, Cursor.faults_advance]

end Lists

end Reader

end GraphScript
