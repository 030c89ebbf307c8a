import GraphScript.Proofs.Program.Parts
import GraphScript.Proofs.Program.Reading

namespace GraphScript

/-!
# Where a reader takes its spans from

A reader steps over some of the tokens ahead, whether it fails or not, and a
cursor remembers the place of the last token that was stepped over.
`Reader.PlacesFrom` says of what a reader gives how it belongs to these tokens.
It composes along `>>=` like `Reader.ReadsFrom`, which says how the tokens spell
what is given, and the two are put together where a part of a program is done.
-/

/-- A span is the one of the first of some tokens. -/
def Span.Begins
    (span : Span)
    (tokens : List Token) :
    Prop :=
  tokens.head?.map (·.span) = some span

/-- The first token stays the first with more behind it. -/
theorem Span.Begins.append
    {span : Span}
    {tokens : List Token}
    (begins : span.Begins tokens)
    (more : List Token) :
    span.Begins (tokens ++ more) := by
  obtain ⟨first, isFirst, isSpan⟩ := Option.map_eq_some_iff.mp begins
  rw [Begins, List.head?_append, isFirst]
  exact congrArg some isSpan

namespace Cursor

/-- The way from one place to another steps over tokens. -/
structure StepsOver
    (cursor : Cursor)
    (tokens : List Token)
    (next : Cursor) :
    Prop where
  split : cursor.pending = tokens ++ next.pending
  previous :
    next.previous = (tokens.getLast?.map (·.span)).getD cursor.previous

/-- The last of the tokens read so far is the one that a cursor remembers. -/
def Behind
    (cursor : Cursor)
    (taken : List Token) :
    Prop :=
  ∀ last, taken.getLast? = some last → cursor.previous = last.span

theorem behind_nil
    (cursor : Cursor) :
    cursor.Behind [] :=
  nofun

namespace StepsOver

variable
  {cursor middle next : Cursor}
  {tokens more taken : List Token}

/-- Staying at a place steps over nothing. -/
theorem refl
    (cursor : Cursor) :
    cursor.StepsOver [] cursor :=
  ⟨rfl, rfl⟩

/-- Two ways in a row step over their tokens one after the other. -/
theorem trans
    (steps : cursor.StepsOver tokens middle)
    (stepsOn : middle.StepsOver more next) :
    cursor.StepsOver (tokens ++ more) next := by
  constructor
  · rw [steps.split, stepsOn.split, List.append_assoc]
  · rw [stepsOn.previous, steps.previous, List.getLast?_append]
    cases more.getLast? <;> rfl

/-- Behind some tokens and others stepped over, the last of all is remembered. -/
theorem behind
    (steps : cursor.StepsOver tokens next)
    (behind : cursor.Behind taken) :
    next.Behind (taken ++ tokens) := by
  intro last isLast
  rw [List.getLast?_append] at isLast
  rw [steps.previous]
  cases lastOfTokens : tokens.getLast? with
  | some other =>
      rw [lastOfTokens, Option.some_or, Option.some.injEq] at isLast
      rw [isLast]
      rfl
  | none =>
      rw [lastOfTokens, Option.none_or] at isLast
      exact behind last isLast

end StepsOver

/-- What is remembered is the last of any final part. -/
theorem Behind.of_append
    {cursor : Cursor}
    {taken more : List Token}
    (behind : cursor.Behind (taken ++ more)) :
    cursor.Behind more := by
  intro last isLast
  apply behind
  rw [List.getLast?_append, isLast, Option.some_or]

/-! ## Ways that skip tokens -/

/-- Advancing steps over the token ahead. -/
theorem stepsOver_token
    {cursor : Cursor}
    {token : Token}
    {rest : List Token}
    (ahead : cursor.pending = token :: rest) :
    cursor.StepsOver [token] cursor.advance := by
  simp only [advance, ahead]
  exact ⟨ahead, rfl⟩

/-- A token is still ahead after a way that skips none, and is stepped over. -/
theorem StepsOver.advance
    {cursor next : Cursor}
    (steps : cursor.StepsOver [] next)
    {token : Token}
    {rest : List Token}
    (ahead : cursor.pending = token :: rest) :
    cursor.StepsOver [token] next.advance :=
  steps.trans (stepsOver_token (steps.split.symm.trans ahead))

/-- Advancing steps over some tokens, at the end over none. -/
theorem stepsOver_advance
    (cursor : Cursor) :
    ∃ tokens, cursor.StepsOver tokens cursor.advance := by
  cases ahead : cursor.pending with
  | nil =>
      have stays : cursor.advance = cursor := by
        simp only [advance, ahead]
      rw [stays]
      exact ⟨[], .refl cursor⟩
  | cons token rest =>
      exact ⟨[token], stepsOver_token ahead⟩

/-- Reporting steps over nothing. -/
theorem stepsOver_report
    (cursor : Cursor)
    (fault : Fault) :
    cursor.StepsOver [] (cursor.report fault) :=
  ⟨rfl, rfl⟩

/-- Skipping to where reading can start again steps over tokens. -/
theorem stepsOver_synchronize
    (cursor : Cursor) :
    ∃ tokens, cursor.StepsOver tokens cursor.synchronize := by
  fun_induction synchronize cursor with
  | case1 cursor =>
      exact ⟨[], .refl cursor⟩
  | case2 cursor =>
      exact cursor.stepsOver_advance
  | case3 cursor =>
      exact ⟨[], .refl cursor⟩
  | case4 cursor _ _ ahead _ _ shorter inductionHypothesis =>
      obtain ⟨tokens, steps⟩ := inductionHypothesis
      exact ⟨_, (stepsOver_token ahead).trans steps⟩

/-- Skipping an item steps over tokens. -/
theorem stepsOver_skipItem
    (cursor : Cursor)
    (fault : Fault) :
    ∃ tokens, cursor.StepsOver tokens (cursor.skipItem fault) := by
  obtain ⟨first, stepsFirst⟩ := (cursor.report fault).stepsOver_advance
  obtain ⟨others, stepsOthers⟩ :=
    (cursor.report fault).advance.stepsOver_synchronize
  exact ⟨_, ((cursor.stepsOver_report fault).trans stepsFirst).trans
    stepsOthers⟩

end Cursor

namespace Reader

variable {α β : Type}

/--
A reader, from a place, steps over tokens to which what it gives belongs.

`taken` are the tokens that were read before and belong to the same tree.
-/
def PlacesFrom
    (reader : Reader α)
    (cursor : Cursor)
    (taken : List Token)
    (placed : α → List Token → Prop) :
    Prop :=
  cursor.Behind taken →
    ∃ tokens,
      cursor.StepsOver tokens (reader.run cursor).2 ∧
        ∀ value,
          (reader.run cursor).1 = some value →
          placed value (taken ++ tokens)

/-- A reader, from every place, steps over tokens to which what it gives belongs. -/
def Places
    (reader : Reader α)
    (placed : α → List Token → Prop) :
    Prop :=
  ∀ cursor, reader.PlacesFrom cursor [] placed

/-- A reader steps over tokens, whatever it gives. -/
def Steps
    (reader : Reader α) :
    Prop :=
  reader.Places fun _ _ => True

namespace PlacesFrom

variable
  {cursor : Cursor}
  {taken : List Token}
  {reader : Reader α}
  {placed : α → List Token → Prop}

/-- A weaker claim about what belongs to the tokens holds as well. -/
theorem mono
    {implied : α → List Token → Prop}
    (places : reader.PlacesFrom cursor taken placed)
    (implies :
      ∀ value tokens, placed value tokens → implied value tokens) :
    reader.PlacesFrom cursor taken implied := by
  intro behind
  obtain ⟨tokens, steps, gives⟩ := places behind
  exact ⟨tokens, steps, fun value gave =>
    implies value _ (gives value gave)⟩

/-- What was read before stays in front. -/
theorem begun
    (places : reader.PlacesFrom cursor taken placed) :
    reader.PlacesFrom cursor taken fun value tokens =>
      (∃ more, tokens = taken ++ more) ∧ placed value tokens := by
  intro behind
  obtain ⟨tokens, steps, gives⟩ := places behind
  exact ⟨tokens, steps, fun value gave =>
    ⟨⟨tokens, rfl⟩, gives value gave⟩⟩

/-- What is given without reading belongs to the tokens taken before. -/
theorem pure
    {value : α}
    (belongs : placed value taken) :
    (Pure.pure value : Reader α).PlacesFrom cursor taken placed := by
  refine fun _ => ⟨[], .refl cursor, ?_⟩
  rintro _ ⟨⟩
  rwa [List.append_nil]

/-- Failing steps over nothing. -/
theorem fail
    {fault : Fault} :
    (Reader.fail fault).PlacesFrom cursor taken placed :=
  fun _ => ⟨[], cursor.stepsOver_report fault, nofun⟩

/-- Failing behind the token steps over it. -/
theorem failPast
    {fault : Fault} :
    (Reader.failPast fault).PlacesFrom cursor taken placed := by
  intro _
  obtain ⟨tokens, steps⟩ := (cursor.report fault).stepsOver_advance
  exact ⟨tokens, (cursor.stepsOver_report fault).trans steps, nofun⟩

/-- A token that is not the one wanted is not stepped over. -/
theorem unexpected
    {wanted : Expectation} :
    (Reader.unexpected wanted).PlacesFrom cursor taken placed :=
  fun _ => ⟨[], cursor.stepsOver_report _, nofun⟩

/--
A second reader goes on with what the first one has given.

The first one goes on behind `begunBy`, the last of the tokens read before.
-/
theorem bindAfter
    {second : α → Reader β}
    {begunBy : List Token}
    {finished : β → List Token → Prop}
    (placesFirst : reader.PlacesFrom cursor begunBy placed)
    (placesSecond :
      ∀ value tokens next,
        placed value tokens →
        (second value).PlacesFrom next (taken ++ tokens) finished) :
    (reader >>= second).PlacesFrom cursor (taken ++ begunBy) finished := by
  intro behind
  obtain ⟨tokens, steps, gives⟩ := placesFirst behind.of_append
  rw [run_bind]
  rcases ran : reader.run cursor with ⟨result, middle⟩
  rw [ran] at steps gives
  cases result with
  | none =>
      exact ⟨tokens, steps, nofun⟩
  | some value =>
      have behindBoth := steps.behind behind
      rw [List.append_assoc] at behindBoth
      obtain ⟨more, stepsOn, finishes⟩ :=
        placesSecond value _ middle (gives value rfl) behindBoth
      refine ⟨tokens ++ more, steps.trans stepsOn, fun final gave => ?_⟩
      have belongs := finishes final gave
      simpa only [List.append_assoc] using belongs

/-- A second reader goes on with what the first one has given. -/
theorem bind
    {second : α → Reader β}
    {finished : β → List Token → Prop}
    (placesFirst : reader.PlacesFrom cursor [] placed)
    (placesSecond :
      ∀ value tokens next,
        placed value tokens →
        (second value).PlacesFrom next (taken ++ tokens) finished) :
    (reader >>= second).PlacesFrom cursor taken finished :=
  List.append_nil taken ▸ placesFirst.bindAfter placesSecond

/-- What has begun a tree alone is all that was read before. -/
theorem bindWhole
    {second : α → Reader β}
    {finished : β → List Token → Prop}
    (placesFirst : reader.PlacesFrom cursor taken placed)
    (placesSecond :
      ∀ value tokens next,
        placed value tokens →
        (second value).PlacesFrom next tokens finished) :
    (reader >>= second).PlacesFrom cursor taken finished :=
  show (reader >>= second).PlacesFrom cursor ([] ++ taken) finished from
    placesFirst.bindAfter placesSecond

/-- Looking at the next token changes nothing. -/
theorem peek
    {second : Token.Kind → Reader β}
    {finished : β → List Token → Prop}
    (places : (second cursor.kind).PlacesFrom cursor taken finished) :
    (Reader.peek >>= second).PlacesFrom cursor taken finished :=
  places

/-- A span from the first token read joins that token with the last one. -/
theorem spanFrom
    {start : Span}
    {second : Span → Reader β}
    {finished : β → List Token → Prop}
    (begins : start.Begins taken)
    (places :
      ∀ span,
        span.JoinsEnds taken →
        (second span).PlacesFrom cursor taken finished) :
    (Reader.spanFrom start >>= second).PlacesFrom cursor taken finished := by
  intro behind
  refine places (start.merge cursor.previous) ?_ behind
  obtain ⟨first, isFirst, rfl⟩ := Option.map_eq_some_iff.mp begins
  have nonempty : taken ≠ [] := by
    rintro rfl
    cases isFirst
  have isLast := List.getLast?_eq_some_getLast nonempty
  exact ⟨first, _, isFirst, isLast, by rw [behind _ isLast]⟩

/-- Stepping over a token that is known gives its place. -/
theorem token
    {kind : Token.Kind}
    (ahead : cursor.kind = kind)
    (inText : kind ≠ .endOfFile) :
    Reader.advance.PlacesFrom cursor [] fun span tokens =>
      tokens = [⟨kind, span⟩] := by
  subst ahead
  obtain ⟨⟨found, place⟩, rest, pending, rfl⟩ :=
    Cursor.pending_of_kind inText
  refine fun _ => ⟨_, Cursor.stepsOver_token pending, ?_⟩
  rintro _ ⟨⟩
  simp [Cursor.span, pending]

/-- A reader goes on behind a token that is known. -/
theorem advance
    {kind : Token.Kind}
    {second : Span → Reader β}
    {finished : β → List Token → Prop}
    (ahead : cursor.kind = kind)
    (inText : kind ≠ .endOfFile)
    (places :
      ∀ span next,
        (second span).PlacesFrom next (taken ++ [⟨kind, span⟩]) finished) :
    (Reader.advance >>= second).PlacesFrom cursor taken finished := by
  refine (token ahead inText).bind ?_
  rintro span tokens next rfl
  exact places span next

/-- The tokens that are stepped over spell what is given. -/
theorem spelled
    {spelled : α → Spellings}
    (reads : reader.ReadsFrom cursor (taken.map (·.kind)) spelled)
    (places : reader.PlacesFrom cursor taken placed) :
    reader.PlacesFrom cursor taken fun value tokens =>
      tokens.map (·.kind) ∈ spelled value ∧ placed value tokens := by
  intro behind
  obtain ⟨tokens, steps, gives⟩ := places behind
  refine ⟨tokens, steps, fun value gave => ⟨?_, gives value gave⟩⟩
  rcases reads with ⟨failed, _⟩ | ⟨found, kinds, isFound, takes, complete⟩
  · cases failed.symm.trans gave
  · cases isFound.symm.trans gave
    have split := takes.split
    rw [Cursor.kinds, Cursor.kinds, steps.split, List.map_append] at split
    rw [List.map_append, List.append_cancel_right split]
    exact complete

/-- What is spelled by its tokens, spans them and has its parts in them is a part. -/
theorem part
    (toPart : α → Part)
    (reads :
      reader.ReadsFrom cursor (taken.map (·.kind)) fun value =>
        (toPart value).spelling)
    (places :
      reader.PlacesFrom cursor taken fun value tokens =>
        (toPart value).span.JoinsEnds tokens ∧
          Part.StandIn (toPart value).parts tokens) :
    reader.PlacesFrom cursor taken fun value tokens =>
      Part.StandIn [toPart value] tokens :=
  (places.spelled reads).mono fun _ _ ⟨spells, joins, inner⟩ =>
    .single ⟨spells, joins⟩ inner

end PlacesFrom

end Reader

end GraphScript
