import GraphScript.Program.Reader
import GraphScript.Proofs.Program.Spelling

namespace GraphScript

/-!
# What a reader does to a cursor

From a given place a reader either reports a fault or takes tokens silently.
`Reader.ReadsFrom` says this of what was taken: together with the tokens read
before, it spells the tree that is given. It composes along `>>=`, so that a
reader is proved the way it is written.
-/

namespace Cursor

/-- What the tokens ahead say. -/
def kinds
    (cursor : Cursor) :
    List Token.Kind :=
  cursor.pending.map (·.kind)

/-- The tokens before the end of the text are the ones ahead at the start. -/
theorem kinds_ofTokens
    {tokens : List Token}
    {finish : Token}
    (unfinished : ∀ token ∈ tokens, token.kind.isEndOfFile = false)
    (finished : finish.kind.isEndOfFile = true) :
    (ofTokens (tokens ++ [finish])).kinds = tokens.map (·.kind) := by
  have ahead :
      (ofTokens (tokens ++ [finish])).pending = tokens := by
    simp only [ofTokens]
    rw [List.takeWhile_append_of_pos fun token member => by
      simp [unfinished token member]]
    simp [finished]
  rw [kinds, ahead]

/-- Whether faults were reported on the way from one place to another. -/
def Faulted
    (cursor next : Cursor) :
    Prop :=
  ∃ fault faults, next.faults = cursor.faults ++ fault :: faults

/-- Whether the way from one place to another takes tokens and reports nothing. -/
structure Takes
    (cursor : Cursor)
    (taken : List Token.Kind)
    (next : Cursor) :
    Prop where
  split : cursor.kinds = taken ++ next.kinds
  silent : next.faults = cursor.faults

namespace Faulted

/-- A fault reported behind a silent way is reported on the whole way. -/
theorem of_silent_left
    {cursor middle next : Cursor}
    (silent : middle.faults = cursor.faults)
    (faulted : middle.Faulted next) :
    cursor.Faulted next := by
  obtain ⟨fault, faults, found⟩ := faulted
  exact ⟨fault, faults, by rw [found, silent]⟩

/-- A fault stays reported on every way further. -/
theorem trans_extends
    {cursor middle next : Cursor}
    (faulted : cursor.Faulted middle)
    (grows : middle.faults <+: next.faults) :
    cursor.Faulted next := by
  obtain ⟨fault, faults, found⟩ := faulted
  obtain ⟨later, grown⟩ := grows
  exact ⟨fault, faults ++ later, by simp [← grown, found]⟩

/-- Where faults are reported there are faults. -/
theorem faults_ne_nil
    {cursor next : Cursor}
    (faulted : cursor.Faulted next) :
    next.faults ≠ [] := by
  obtain ⟨fault, faults, found⟩ := faulted
  simp [found]

/-- A way with faults only adds to the faults reported before. -/
theorem faults_grow
    {cursor next : Cursor}
    (faulted : cursor.Faulted next) :
    cursor.faults <+: next.faults := by
  obtain ⟨fault, faults, found⟩ := faulted
  exact ⟨fault :: faults, found.symm⟩

end Faulted

/-- Reporting a fault is a way with faults. -/
theorem faulted_report
    (cursor : Cursor)
    (fault : Fault) :
    cursor.Faulted (cursor.report fault) :=
  ⟨_, [], rfl⟩

/-- Stepping over a token reports nothing. -/
@[simp] theorem faults_advance
    (cursor : Cursor) :
    cursor.advance.faults = cursor.faults := by
  rcases cursor with ⟨pending, _, _, _⟩
  cases pending <;> rfl

/-- Only the end of the text is ahead where no token is. -/
theorem pending_of_kind
    {cursor : Cursor}
    (ahead : cursor.kind ≠ .endOfFile) :
    ∃ token rest,
      cursor.pending = token :: rest ∧ token.kind = cursor.kind := by
  rcases cursor with ⟨pending, _, _, _⟩
  cases pending with
  | nil =>
      exact (ahead rfl).elim
  | cons token rest =>
      exact ⟨token, rest, rfl, rfl⟩

/-- Stepping over a token takes it. -/
theorem takes_token
    {cursor : Cursor}
    {token : Token}
    {rest : List Token}
    (ahead : cursor.pending = token :: rest) :
    cursor.Takes [token.kind] cursor.advance :=
  ⟨by simp [kinds, advance, ahead], faults_advance cursor⟩

/-- Stepping over what is not the end of the text takes it. -/
theorem takes_advance
    {cursor : Cursor}
    (inText : cursor.kind ≠ .endOfFile) :
    cursor.Takes [cursor.kind] cursor.advance := by
  obtain ⟨token, rest, ahead, kind⟩ := pending_of_kind inText
  exact kind ▸ takes_token ahead

/-- Skipping tokens reports nothing. -/
@[simp] theorem faults_synchronize
    (cursor : Cursor) :
    cursor.synchronize.faults = cursor.faults := by
  fun_induction synchronize cursor with
  | case1 =>
      rfl
  | case2 cursor =>
      exact faults_advance cursor
  | case3 =>
      rfl
  | case4 cursor _ _ _ _ _ _ inductionHypothesis =>
      rw [inductionHypothesis, faults_advance]

/-- Skipping an item reports a fault. -/
theorem faulted_skipItem
    (cursor : Cursor)
    (fault : Fault) :
    cursor.Faulted (cursor.skipItem fault) :=
  (cursor.faulted_report fault).trans_extends (by simp [skipItem])

namespace Takes

/-- Staying at a place takes no tokens. -/
theorem refl
    (cursor : Cursor) :
    cursor.Takes [] cursor :=
  ⟨rfl, rfl⟩

/-- Two ways that take tokens take them one after the other. -/
theorem trans
    {cursor middle next : Cursor}
    {first second : List Token.Kind}
    (takesFirst : cursor.Takes first middle)
    (takesSecond : middle.Takes second next) :
    cursor.Takes (first ++ second) next :=
  ⟨by rw [takesFirst.split, takesSecond.split, List.append_assoc],
    takesSecond.silent.trans takesFirst.silent⟩

end Takes

/--
Whether the way from one place to another reports a fault, or takes tokens for
which a condition holds.
-/
def Passes
    (cursor next : Cursor)
    (condition : List Token.Kind → Prop) :
    Prop :=
  cursor.Faulted next ∨
    ∃ kinds, cursor.Takes kinds next ∧ condition kinds

namespace Passes

/-- No way takes reported faults back. -/
theorem faults_grow
    {cursor next : Cursor}
    {condition : List Token.Kind → Prop}
    (passes : cursor.Passes next condition) :
    cursor.faults <+: next.faults := by
  rcases passes with faulted | ⟨_, takes, _⟩
  · exact faulted.faults_grow
  · rw [takes.silent]

/-- Two ways in a row pass, where their conditions join to one for all the tokens. -/
theorem trans
    {cursor middle next : Cursor}
    {first second both : List Token.Kind → Prop}
    (passesFirst : cursor.Passes middle first)
    (passesSecond : middle.Passes next second)
    (join :
      ∀ firstKinds secondKinds,
        first firstKinds →
        second secondKinds →
        both (firstKinds ++ secondKinds)) :
    cursor.Passes next both := by
  rcases passesFirst with faulted | ⟨firstKinds, takesFirst, holdsFirst⟩
  · exact .inl (faulted.trans_extends passesSecond.faults_grow)
  · rcases passesSecond with faulted | ⟨secondKinds, takesSecond, holdsSecond⟩
    · exact .inl (faulted.of_silent_left takesFirst.silent)
    · exact .inr ⟨_, takesFirst.trans takesSecond,
        join _ _ holdsFirst holdsSecond⟩

/-- A way with faults behind one that passes is a way with faults from the start. -/
theorem trans_faulted
    {cursor middle next : Cursor}
    {condition : List Token.Kind → Prop}
    (passes : cursor.Passes middle condition)
    (faulted : middle.Faulted next) :
    cursor.Faulted next := by
  rcases passes with before | ⟨_, takes, _⟩
  · exact before.trans_extends faulted.faults_grow
  · exact faulted.of_silent_left takes.silent

/-- A way without new faults takes tokens for which the condition holds. -/
theorem of_faults_nil
    {cursor next : Cursor}
    {condition : List Token.Kind → Prop}
    (passes : cursor.Passes next condition)
    (silent : next.faults = []) :
    ∃ kinds, cursor.Takes kinds next ∧ condition kinds :=
  passes.resolve_left fun faulted => faulted.faults_ne_nil silent

end Passes

end Cursor

namespace Reader

variable {α β : Type}

/--
Whether a reader, from a place, fails with a fault or takes tokens that complete
a spelling of what it gives.

`taken` are the tokens that were read before and belong to the same tree.
-/
def ReadsFrom
    (reader : Reader α)
    (cursor : Cursor)
    (taken : List Token.Kind)
    (spelled : α → Spellings) :
    Prop :=
  ((reader.run cursor).1 = none ∧
      cursor.Faulted (reader.run cursor).2) ∨
    ∃ value kinds,
      (reader.run cursor).1 = some value ∧
        cursor.Takes kinds (reader.run cursor).2 ∧
        taken ++ kinds ∈ spelled value

/-- Whether a reader, from every place, fails or takes a spelling. -/
def Reads
    (reader : Reader α)
    (spelled : α → Spellings) :
    Prop :=
  ∀ cursor, reader.ReadsFrom cursor [] spelled

namespace ReadsFrom

variable {cursor : Cursor} {taken : List Token.Kind}

/-- A reader that gives a tree has taken its spelling. -/
theorem of_some
    {reader : Reader α}
    {spelled : α → Spellings}
    {value : α}
    {next : Cursor}
    (reads : reader.ReadsFrom cursor taken spelled)
    (ran : reader.run cursor = (some value, next)) :
    ∃ kinds, cursor.Takes kinds next ∧ taken ++ kinds ∈ spelled value := by
  simp only [ReadsFrom, ran] at reads
  rcases reads with ⟨failed, _⟩ | ⟨_, kinds, ⟨⟩, takes, complete⟩
  · cases failed
  · exact ⟨kinds, takes, complete⟩

/-- A reader that fails has reported a fault. -/
theorem of_none
    {reader : Reader α}
    {spelled : α → Spellings}
    {next : Cursor}
    (reads : reader.ReadsFrom cursor taken spelled)
    (ran : reader.run cursor = (none, next)) :
    cursor.Faulted next := by
  simp only [ReadsFrom, ran] at reads
  rcases reads with ⟨_, faulted⟩ | ⟨_, _, gave, _⟩
  · exact faulted
  · cases gave

/-- What is given without reading needs no token beyond those taken before. -/
theorem pure
    {spelled : α → Spellings}
    {value : α}
    (complete : taken ∈ spelled value) :
    (Pure.pure value : Reader α).ReadsFrom cursor taken spelled :=
  .inr ⟨value, [], rfl, .refl cursor, by simpa using complete⟩

/-- Failing reports the fault. -/
theorem fail
    {spelled : α → Spellings}
    {fault : Fault} :
    (Reader.fail fault).ReadsFrom cursor taken spelled :=
  .inl ⟨rfl, cursor.faulted_report fault⟩

/-- Failing behind the token reports the fault as well. -/
theorem failPast
    {spelled : α → Spellings}
    {fault : Fault} :
    (Reader.failPast fault).ReadsFrom cursor taken spelled := by
  refine .inl ⟨rfl, (cursor.faulted_report fault).trans_extends ?_⟩
  exact (Cursor.faults_advance _).symm ▸ List.prefix_rfl

/-- A token that is not the one wanted is reported. -/
theorem unexpected
    {spelled : α → Spellings}
    {wanted : Expectation} :
    (Reader.unexpected wanted).ReadsFrom cursor taken spelled :=
  .inl ⟨rfl, cursor.faulted_report _⟩

/--
A second reader completes what the first one has begun.

The first one goes on behind `begunBy`, the last of the tokens read before.
-/
theorem bindAfter
    {first : Reader α}
    {second : α → Reader β}
    {begunBy : List Token.Kind}
    {begun : α → Spellings}
    {spelled : β → Spellings}
    (readsFirst : first.ReadsFrom cursor begunBy begun)
    (readsSecond :
      ∀ value kinds next,
        kinds ∈ begun value →
        (second value).ReadsFrom next (taken ++ kinds) spelled) :
    (first >>= second).ReadsFrom cursor (taken ++ begunBy) spelled := by
  unfold ReadsFrom
  rw [run_bind]
  rcases ran : first.run cursor with ⟨result, middle⟩
  cases result with
  | none =>
      exact .inl ⟨rfl, readsFirst.of_none ran⟩
  | some value =>
      obtain ⟨kinds, takes, begins⟩ := readsFirst.of_some ran
      rcases readsSecond value (begunBy ++ kinds) middle begins with
          ⟨failed, faulted⟩ | ⟨final, more, gave, takesMore, complete⟩
      · exact .inl ⟨failed, faulted.of_silent_left takes.silent⟩
      · exact .inr ⟨final, kinds ++ more, gave, takes.trans takesMore,
          by simpa [List.append_assoc] using complete⟩

/-- A second reader completes what the first one has begun. -/
theorem bind
    {first : Reader α}
    {second : α → Reader β}
    {begun : α → Spellings}
    {spelled : β → Spellings}
    (readsFirst : first.ReadsFrom cursor [] begun)
    (readsSecond :
      ∀ value kinds next,
        kinds ∈ begun value →
        (second value).ReadsFrom next (taken ++ kinds) spelled) :
    (first >>= second).ReadsFrom cursor taken spelled :=
  List.append_nil taken ▸ readsFirst.bindAfter readsSecond

/-- What has begun a tree alone is all that was read before. -/
theorem bindWhole
    {first : Reader α}
    {second : α → Reader β}
    {begun : α → Spellings}
    {spelled : β → Spellings}
    (readsFirst : first.ReadsFrom cursor taken begun)
    (readsSecond :
      ∀ value kinds next,
        kinds ∈ begun value →
        (second value).ReadsFrom next kinds spelled) :
    (first >>= second).ReadsFrom cursor taken spelled :=
  show (first >>= second).ReadsFrom cursor ([] ++ taken) spelled from
    readsFirst.bindAfter readsSecond

/-- Looking at the next token changes nothing. -/
theorem peek
    {second : Token.Kind → Reader β}
    {spelled : β → Spellings}
    (reads : (second cursor.kind).ReadsFrom cursor taken spelled) :
    (Reader.peek >>= second).ReadsFrom cursor taken spelled :=
  reads

/-- Asking for a span takes no token. -/
theorem spanFrom
    {start : Span}
    {second : Span → Reader β}
    {spelled : β → Spellings}
    (reads :
      ∀ span, (second span).ReadsFrom cursor taken spelled) :
    (Reader.spanFrom start >>= second).ReadsFrom cursor taken spelled :=
  reads (start.merge cursor.previous)

/-- Stepping over a token that is known takes it. -/
theorem token
    {kind : Token.Kind}
    (ahead : cursor.kind = kind)
    (inText : kind ≠ .endOfFile) :
    Reader.advance.ReadsFrom cursor [] fun _ => kind.alone := by
  subst ahead
  exact .inr ⟨cursor.span, [cursor.kind], rfl,
    Cursor.takes_advance inText, rfl⟩

/-- A reader goes on behind a token that is known. -/
theorem advance
    {kind : Token.Kind}
    {second : Span → Reader β}
    {spelled : β → Spellings}
    (ahead : cursor.kind = kind)
    (inText : kind ≠ .endOfFile)
    (reads :
      ∀ span next,
        (second span).ReadsFrom next (taken ++ [kind]) spelled) :
    (Reader.advance >>= second).ReadsFrom cursor taken spelled := by
  refine (token ahead inText).bind ?_
  rintro span kinds next rfl
  exact reads span next

end ReadsFrom

/--
Whether a reader, from a place, reports a fault or takes tokens that complete a
spelling of what it gives.

Unlike with `ReadsFrom`, something may be given although a fault was reported.
-/
def ReadsOrReports
    (reader : Reader α)
    (cursor : Cursor)
    (taken : List Token.Kind)
    (spelled : α → Spellings) :
    Prop :=
  cursor.Passes (reader.run cursor).2 fun kinds =>
    ∃ value,
      (reader.run cursor).1 = some value ∧
        taken ++ kinds ∈ spelled value

/-- A reader that gives a tree has reported a fault or taken its spelling. -/
theorem ReadsOrReports.of_some
    {reader : Reader α}
    {cursor next : Cursor}
    {taken : List Token.Kind}
    {spelled : α → Spellings}
    {value : α}
    (reads : reader.ReadsOrReports cursor taken spelled)
    (ran : reader.run cursor = (some value, next)) :
    cursor.Passes next fun kinds => taken ++ kinds ∈ spelled value := by
  simp only [ReadsOrReports, ran] at reads
  rcases reads with faulted | ⟨kinds, takes, _, ⟨⟩, complete⟩
  · exact .inl faulted
  · exact .inr ⟨kinds, takes, complete⟩

/-- A reader that gives nothing has reported a fault. -/
theorem ReadsOrReports.of_none
    {reader : Reader α}
    {cursor next : Cursor}
    {taken : List Token.Kind}
    {spelled : α → Spellings}
    (reads : reader.ReadsOrReports cursor taken spelled)
    (ran : reader.run cursor = (none, next)) :
    cursor.Faulted next := by
  simp only [ReadsOrReports, ran] at reads
  rcases reads with faulted | ⟨_, _, _, gave, _⟩
  · exact faulted
  · cases gave

/--
A reader that fails with a fault or takes a spelling does so in the weaker sense
too.
-/
theorem ReadsFrom.readsOrReports
    {reader : Reader α}
    {cursor : Cursor}
    {taken : List Token.Kind}
    {spelled : α → Spellings}
    (reads : reader.ReadsFrom cursor taken spelled) :
    reader.ReadsOrReports cursor taken spelled := by
  rcases reads with ⟨_, faulted⟩ | ⟨value, kinds, gave, takes, complete⟩
  · exact .inl faulted
  · exact .inr ⟨kinds, takes, value, gave, complete⟩

/-- A reader that gives up ends what follows it. -/
theorem ReadsFrom.bindReports
    {cursor : Cursor}
    {whole begunBy : List Token.Kind}
    {first : Reader α}
    {second : α → Reader β}
    {begun : α → Spellings}
    {spelled : β → Spellings}
    (readsFirst : first.ReadsFrom cursor begunBy begun)
    (taken : List Token.Kind)
    (joined : whole = taken ++ begunBy)
    (readsSecond :
      ∀ value kinds next,
        kinds ∈ begun value →
        (second value).ReadsOrReports next (taken ++ kinds) spelled) :
    (first >>= second).ReadsOrReports cursor whole spelled := by
  subst joined
  unfold ReadsOrReports
  rw [run_bind]
  rcases ran : first.run cursor with ⟨result, middle⟩
  cases result with
  | none =>
      exact .inl (readsFirst.of_none ran)
  | some value =>
      obtain ⟨kinds, takes, begins⟩ := readsFirst.of_some ran
      have passesSecond := readsSecond value (begunBy ++ kinds) middle begins
      have passesFirst : cursor.Passes middle fun taken => taken = kinds :=
        .inr ⟨kinds, takes, rfl⟩
      refine passesFirst.trans passesSecond ?_
      rintro _ more rfl ⟨final, gave, complete⟩
      exact ⟨final, gave, by simpa [List.append_assoc] using complete⟩

/--
A reader that may give something in spite of a fault is followed by another one.

What the first one took is only known to be right if it reported nothing.
-/
theorem ReadsOrReports.bind
    {cursor : Cursor}
    {whole begunBy : List Token.Kind}
    {first : Reader α}
    {second : α → Reader β}
    {begun : α → Spellings}
    {spelled : β → Spellings}
    (readsFirst : first.ReadsOrReports cursor begunBy begun)
    (taken : List Token.Kind)
    (joined : whole = taken ++ begunBy)
    (readsSecond :
      ∀ value kinds next,
        (second value).ReadsOrReports next (taken ++ kinds) fun final =>
          {all | kinds ∈ begun value → all ∈ spelled final}) :
    (first >>= second).ReadsOrReports cursor whole spelled := by
  subst joined
  unfold ReadsOrReports
  rw [run_bind]
  rcases ran : first.run cursor with ⟨result, middle⟩
  cases result with
  | none =>
      exact .inl (readsFirst.of_none ran)
  | some value =>
      rcases readsFirst.of_some ran with faulted | ⟨kinds, takes, begins⟩
      · exact .inl
          (faulted.trans_extends (readsSecond value [] middle).faults_grow)
      · have passesFirst :
            cursor.Passes middle fun taken => taken = kinds :=
          .inr ⟨kinds, takes, rfl⟩
        refine passesFirst.trans
          (readsSecond value (begunBy ++ kinds) middle) ?_
        rintro _ more rfl ⟨final, gave, complete⟩
        exact ⟨final, gave,
          by simpa [List.append_assoc] using complete begins⟩

/-- Read a graph as an item after its first word, with or without a semicolon. -/
def graphItemAfter
    (start : Span)
    (direction : Direction) :
    Reader Item := do
  let declaration ← graphAfter start direction
  optionalMark .semicolon
  return .graph declaration

/-- Whether an item may stand behind the latest kind of item so far. -/
def Follows
    (latest : Option ItemKind)
    (kind : ItemKind) :
    Prop :=
  ∀ earlier ∈ latest, earlier.rank ≤ kind.rank

/-- An item in order is the latest one. -/
theorem laterKind_of_follows
    {latest : Option ItemKind}
    {kind : ItemKind}
    (follows : Follows latest kind) :
    laterKind latest kind = kind := by
  unfold laterKind
  split
  · next earlier =>
    rw [if_neg (Nat.not_lt.2 (follows earlier rfl))]
  · rfl

end Reader

end GraphScript
