import GraphScript.Proofs.Search.WalkSums
import GraphScript.Search.ShortestPaths

namespace GraphScript.Search

/-!
# Settling one node

Each function of the search for shortest paths is described here by what it does
to the distances: which node is the nearest, what relaxing the arcs that leave a
node changes, and what holds at the end of a search if settling one node after
another keeps it.
-/

namespace Tentative

variable {Sum : Type}

/-! ## Single distances -/

/-- At first every node is listed, in the order of the graph, without a distance. -/
theorem entries_unreached
    {nodes : List String}
    (distinct : nodes.Nodup) :
    (NameMap.ofList (nodes.map fun node => (node, (none : Option Sum)))).entries =
      nodes.map fun node => (node, none) := by
  apply NameMap.entries_ofList
  rw [List.map_map]
  exact (List.map_id nodes).symm ▸ distinct

/-- A node is given a distance, and the node before it on its path. -/
def reach
    (tentative : Tentative Sum)
    (node origin : String)
    (sum : Sum) :
    Tentative Sum :=
  { distances := tentative.distances.insert node (some sum)
    previous := tentative.previous.insert node origin }

/-- Reaching a node sets its distance and no other. -/
theorem distance?_reach
    (tentative : Tentative Sum)
    (node origin other : String)
    (sum : Sum) :
    (tentative.reach node origin sum).distance? other =
      if node = other then some sum else tentative.distance? other := by
  unfold distance? reach
  rw [NameMap.get?_insert]
  split <;> rfl

/-- Reaching a node records where it was reached from, and nothing for the others. -/
theorem previous_reach
    (tentative : Tentative Sum)
    (node origin other : String)
    (sum : Sum) :
    (tentative.reach node origin sum).previous.get? other =
      if node = other then some origin else tentative.previous.get? other :=
  NameMap.get?_insert tentative.previous node other origin

/-- Reaching a listed node adds no name. -/
theorem keys_reach
    {tentative : Tentative Sum}
    {node : String}
    (listed : node ∈ tentative.distances.keys)
    (origin : String)
    (sum : Sum) :
    (tentative.reach node origin sum).distances.keys =
      tentative.distances.keys := by
  unfold reach NameMap.insert
  rw [NameMap.keys_alter, if_pos listed]

variable [Weight Sum]

/-- A search starts with the nodes of its graph, in their order. -/
theorem keys_atStart
    {nodes : List String}
    (distinct : nodes.Nodup)
    {start : String}
    (startIsNode : start ∈ nodes) :
    (atStart nodes start : Tentative Sum).distances.keys = nodes := by
  have listed :
      (NameMap.ofList (nodes.map fun node => (node, (none : Option Sum)))).keys =
        nodes := by
    rw [NameMap.keys, entries_unreached distinct, List.map_map]
    exact List.map_id nodes
  unfold atStart NameMap.insert
  rw [NameMap.keys_alter, listed, if_pos startIsNode]

/-- A search starts with distance zero for its start and none for any other node. -/
theorem distance?_atStart
    {nodes : List String}
    (distinct : nodes.Nodup)
    (start node : String) :
    (atStart nodes start : Tentative Sum).distance? node =
      if start = node then some Weight.zero else none := by
  unfold atStart distance?
  rw [NameMap.get?_insert]
  split
  · rfl
  · rw [NameMap.get?, entries_unreached distinct, NameMap.find?_map_const]
    split <;> rfl

/-- The one node with a distance at first is the start. -/
theorem eq_of_distance?_atStart
    {nodes : List String}
    (distinct : nodes.Nodup)
    {start node : String}
    {distance : Sum}
    (held : (atStart nodes start : Tentative Sum).distance? node = some distance) :
    node = start ∧ distance = Weight.zero := by
  rw [distance?_atStart distinct] at held
  split at held
  · next same =>
      cases held
      exact ⟨same.symm, rfl⟩
  · cases held

/-! ## The nearest node -/

/-- The nearest node is returned with the distance it has. -/
theorem distance?_of_nearest?
    {tentative : Tentative Sum}
    {nodes : List String}
    {node : String}
    {distance : Sum}
    (found : tentative.nearest? nodes = some (node, distance)) :
    tentative.distance? node = some distance := by
  induction nodes with
  | nil =>
      cases found
  | cons first rest inductionHypothesis =>
      rw [nearest?] at found
      split at found
      · exact inductionHypothesis found
      · next isFirst _ =>
          cases found
          exact isFirst
      · next isFirst isLater =>
          split at found
          · cases found
            exact inductionHypothesis isLater
          · cases found
            exact isFirst

/-- There is no nearest node exactly if none of the nodes has a distance. -/
theorem nearest?_eq_none_iff
    {tentative : Tentative Sum}
    {nodes : List String} :
    tentative.nearest? nodes = none ↔
      ∀ node ∈ nodes, tentative.distance? node = none := by
  induction nodes with
  | nil =>
      simp [nearest?]
  | cons first rest inductionHypothesis =>
      rw [nearest?]
      split
      · next isFirst =>
          simp [isFirst, inductionHypothesis]
      · next isFirst _ =>
          simp [isFirst]
      · next isFirst _ =>
          split <;> simp [isFirst]

/-- No listed node is closer than the nearest one. -/
theorem atMost_of_nearest?
    [LawfulWeight Sum]
    {tentative : Tentative Sum}
    {nodes : List String}
    {nearest node : String}
    {least distance : Sum}
    (areDistances :
      ∀ node distance, tentative.distance? node = some distance →
        LawfulWeight.IsDistance distance)
    (found : tentative.nearest? nodes = some (nearest, least))
    (member : node ∈ nodes)
    (isDistance : tentative.distance? node = some distance) :
    AtMost least distance := by
  induction nodes generalizing nearest least with
  | nil =>
      cases member
  | cons first rest inductionHypothesis =>
      rw [nearest?] at found
      split at found
      · next isFirst =>
          cases member with
          | head =>
              rw [isFirst] at isDistance
              cases isDistance
          | tail _ later =>
              exact inductionHypothesis found later
      · next isFirst isLater =>
          cases found
          cases member with
          | head =>
              rw [isFirst] at isDistance
              cases isDistance
              exact atMost_refl (areDistances _ _ isFirst)
          | tail _ later =>
              rw [nearest?_eq_none_iff.mp isLater node later] at isDistance
              cases isDistance
      · next firstDistance other otherDistance isFirst isLater =>
          have firstIs := areDistances _ _ isFirst
          have otherIs := areDistances _ _ (distance?_of_nearest? isLater)
          split at found
          · next isLess =>
              cases found
              cases member with
              | head =>
                  rw [isFirst] at isDistance
                  cases isDistance
                  exact atMost_of_less otherIs firstIs isLess
              | tail _ later =>
                  exact inductionHypothesis isLater later
          · next notLess =>
              cases found
              cases member with
              | head =>
                  rw [isFirst] at isDistance
                  cases isDistance
                  exact atMost_refl firstIs
              | tail _ later =>
                  exact LawfulWeight.atMost_trans firstIs otherIs
                    (areDistances _ _ isDistance)
                    (Bool.eq_false_iff.mpr notLess)
                    (inductionHypothesis isLater later)

/-! ## Relaxing arcs -/

/-- Relaxing an arc reaches its target by a shorter way, or there is none. -/
theorem relax_cases
    (pending : List String)
    (origin : String)
    (distance : Sum)
    (tentative : Tentative Sum)
    (target : String)
    (weight : Sum) :
    (tentative.relax pending origin distance (target, weight) = tentative ∧
      ∀ sum, Weight.add? distance weight = some sum → target ∈ pending →
        ∃ shorter,
          tentative.distance? target = some shorter ∧ AtMost shorter sum) ∨
    ∃ sum,
      Weight.add? distance weight = some sum ∧
      target ∈ pending ∧
      (∀ longer, tentative.distance? target = some longer →
        Weight.less sum longer = true) ∧
      tentative.relax pending origin distance (target, weight) =
        tentative.reach target origin sum := by
  cases isSum : Weight.add? distance weight with
  | none =>
      refine .inl ⟨by simp only [relax, isSum], ?_⟩
      rintro _ ⟨⟩
  | some sum =>
      by_cases shortens : target ∈ pending ∧ tentative.improves target sum
      · refine .inr ⟨sum, rfl, shortens.1, ?_, ?_⟩
        · intro longer isLonger
          simpa [improves, isLonger] using shortens.2
        · simp only [relax, isSum, if_pos shortens, reach]
      · refine .inl ⟨by simp only [relax, isSum, if_neg shortens], ?_⟩
        rintro _ ⟨⟩ isPending
        have keeps : tentative.improves target sum = false :=
          Bool.eq_false_iff.mpr fun improves => shortens ⟨isPending, improves⟩
        cases held : tentative.distance? target with
        | none =>
            simp [improves, held] at keeps
        | some shorter =>
            exact ⟨shorter, rfl, by simpa [AtMost, improves, held] using keeps⟩

/-- A node keeps its distance and the node before it. -/
def KeepsAt
    (before after : Tentative Sum)
    (node : String) :
    Prop :=
  after.distance? node = before.distance? node ∧
    after.previous.get? node = before.previous.get? node

/-- A node is reached by one of some steps, and on a shorter way than before. -/
def GainsAt
    (origin : String)
    (distance : Sum)
    (steps : List (String × Sum))
    (before after : Tentative Sum)
    (node : String) :
    Prop :=
  ∃ weight sum,
    (node, weight) ∈ steps ∧
    Weight.add? distance weight = some sum ∧
    after.distance? node = some sum ∧
    after.previous.get? node = some origin ∧
    ∀ longer, before.distance? node = some longer →
      Weight.less sum longer = true

/-- What relaxing some steps from a node does to the distances. -/
structure Relaxes
    (pending : List String)
    (origin : String)
    (distance : Sum)
    (steps : List (String × Sum))
    (before after : Tentative Sum) :
    Prop where
  keys : after.distances.keys = before.distances.keys
  outside : ∀ node, node ∉ pending → before.KeepsAt after node
  inside :
    ∀ node,
      before.KeepsAt after node ∨
        before.GainsAt origin distance steps after node
  covers :
    ∀ node weight sum, (node, weight) ∈ steps → node ∈ pending →
      Weight.add? distance weight = some sum →
      ∃ shorter, after.distance? node = some shorter ∧ AtMost shorter sum

section Lawful

variable [LawfulWeight Sum]

/-- All distances that a search has found are sums that walks can have. -/
def HasDistances
    (tentative : Tentative Sum) :
    Prop :=
  ∀ node distance, tentative.distance? node = some distance →
    LawfulWeight.IsDistance distance

/-- All steps have the weights that edges can have. -/
def HaveWeights
    (steps : List (String × Sum)) :
    Prop :=
  ∀ node weight, (node, weight) ∈ steps → LawfulWeight.IsWeight weight

variable
  {pending : List String}
  {origin : String}
  {distance : Sum}
  {steps otherSteps : List (String × Sum)}
  {before between after : Tentative Sum}

namespace Relaxes

/-- Relaxing leaves only sums that walks can have. -/
theorem hasDistances
    (relaxes : Relaxes pending origin distance steps before after)
    (isDistance : LawfulWeight.IsDistance distance)
    (haveWeights : HaveWeights steps)
    (hasDistances : before.HasDistances) :
    after.HasDistances := by
  intro node found held
  rcases relaxes.inside node with keeps | gains
  · exact hasDistances node found (keeps.1.symm.trans held)
  · obtain ⟨weight, sum, isStep, isSum, now, _⟩ := gains
    rw [now] at held
    cases held
    exact LawfulWeight.add?_isDistance isDistance (haveWeights _ _ isStep) isSum

/-- No distance gets longer. -/
theorem exists_atMost
    (relaxes : Relaxes pending origin distance steps before after)
    (hasDistances : before.HasDistances)
    (hasDistancesAfter : after.HasDistances)
    {node : String}
    {longer : Sum}
    (held : before.distance? node = some longer) :
    ∃ shorter, after.distance? node = some shorter ∧ AtMost shorter longer := by
  have longerIs := hasDistances node longer held
  rcases relaxes.inside node with keeps | gains
  · exact ⟨longer, keeps.1.trans held, atMost_refl longerIs⟩
  · obtain ⟨weight, sum, isStep, isSum, now, _, shortens⟩ := gains
    exact ⟨sum, now,
      atMost_of_less (hasDistancesAfter _ _ now) longerIs (shortens longer held)⟩

/-- Relaxing along some steps and then along others is relaxing along all of them. -/
theorem append
    (first : Relaxes pending origin distance steps before between)
    (second : Relaxes pending origin distance otherSteps between after)
    (isDistance : LawfulWeight.IsDistance distance)
    (haveWeights : HaveWeights steps)
    (otherHaveWeights : HaveWeights otherSteps)
    (hasDistances : before.HasDistances) :
    Relaxes pending origin distance (steps ++ otherSteps) before after := by
  have between := first.hasDistances isDistance haveWeights hasDistances
  have after := second.hasDistances isDistance otherHaveWeights between
  refine ⟨second.keys.trans first.keys, ?_, ?_, ?_⟩
  · intro node notPending
    have keptFirst := first.outside node notPending
    have keptSecond := second.outside node notPending
    exact ⟨keptSecond.1.trans keptFirst.1, keptSecond.2.trans keptFirst.2⟩
  · intro node
    rcases second.inside node with keptSecond | gainsSecond
    · rcases first.inside node with keptFirst | gainsFirst
      · exact .inl
          ⟨keptSecond.1.trans keptFirst.1, keptSecond.2.trans keptFirst.2⟩
      · obtain ⟨weight, sum, isStep, isSum, now, comesFrom, shortens⟩ :=
          gainsFirst
        exact .inr ⟨weight, sum, List.mem_append_left _ isStep, isSum,
          keptSecond.1.trans now, keptSecond.2.trans comesFrom, shortens⟩
    · obtain ⟨weight, sum, isStep, isSum, now, comesFrom, shortens⟩ :=
        gainsSecond
      refine .inr ⟨weight, sum, List.mem_append_right _ isStep, isSum, now,
        comesFrom, ?_⟩
      intro longer held
      rcases first.inside node with keptFirst | gainsFirst
      · exact shortens longer (keptFirst.1.trans held)
      · obtain ⟨_, middle, _, _, nowMiddle, _, shortensFirst⟩ := gainsFirst
        exact less_trans (after _ _ now) (between _ _ nowMiddle)
          (hasDistances _ _ held) (shortens middle nowMiddle)
          (shortensFirst longer held)
  · intro node weight sum isStep isPending isSum
    rcases List.mem_append.mp isStep with isFirst | isSecond
    · obtain ⟨middle, nowMiddle, middleBelow⟩ :=
        first.covers node weight sum isFirst isPending isSum
      obtain ⟨shorter, now, below⟩ :=
        second.exists_atMost between after nowMiddle
      have sumIs : LawfulWeight.IsDistance sum :=
        LawfulWeight.add?_isDistance isDistance (haveWeights _ _ isFirst) isSum
      exact ⟨shorter, now,
        LawfulWeight.atMost_trans (after _ _ now) (between _ _ nowMiddle) sumIs
          below middleBelow⟩
    · exact second.covers node weight sum isSecond isPending isSum

end Relaxes

/-- One call of `relax` relaxes along the one step it is given. -/
theorem relaxes_relax
    (listed : pending ⊆ before.distances.keys)
    (isDistance : LawfulWeight.IsDistance distance)
    {target : String}
    {weight : Sum}
    (haveWeights : HaveWeights [(target, weight)]) :
    Relaxes pending origin distance [(target, weight)] before
      (before.relax pending origin distance (target, weight)) := by
  rcases relax_cases pending origin distance before target weight with
    ⟨same, covered⟩ | ⟨sum, isSum, isPending, shortens, reaches⟩
  · rw [same]
    refine ⟨rfl, fun _ _ => ⟨rfl, rfl⟩, fun _ => .inl ⟨rfl, rfl⟩, ?_⟩
    intro node otherWeight sum isStep isPending isSum
    cases List.mem_singleton.mp isStep
    exact covered sum isSum isPending
  · rw [reaches]
    have kept :
        ∀ node, target ≠ node →
          before.KeepsAt (before.reach target origin sum) node := by
      intro node isOther
      exact ⟨by rw [distance?_reach, if_neg isOther],
        by rw [previous_reach, if_neg isOther]⟩
    refine ⟨keys_reach (listed isPending) origin sum, ?_, ?_, ?_⟩
    · intro node notPending
      exact kept node fun same => notPending (same ▸ isPending)
    · intro node
      by_cases same : target = node
      · subst same
        exact .inr ⟨weight, sum, List.mem_singleton_self _, isSum,
          by rw [distance?_reach, if_pos rfl],
          by rw [previous_reach, if_pos rfl], shortens⟩
      · exact .inl (kept node same)
    · intro node otherWeight otherSum isStep _ isOtherSum
      cases List.mem_singleton.mp isStep
      rw [isSum] at isOtherSum
      cases isOtherSum
      have sumIs : LawfulWeight.IsDistance sum :=
        LawfulWeight.add?_isDistance isDistance
          (haveWeights _ _ (List.mem_singleton_self _)) isSum
      exact ⟨sum, by rw [distance?_reach, if_pos rfl], atMost_refl sumIs⟩

/-- Relaxing step after step relaxes along all of them. -/
theorem relaxes_foldl
    (listed : pending ⊆ before.distances.keys)
    (isDistance : LawfulWeight.IsDistance distance)
    (haveWeights : HaveWeights steps)
    (hasDistances : before.HasDistances) :
    Relaxes pending origin distance steps before
      (steps.foldl (relax pending origin distance) before) := by
  induction steps generalizing before with
  | nil =>
      exact ⟨rfl, fun _ _ => ⟨rfl, rfl⟩, fun _ => .inl ⟨rfl, rfl⟩, nofun⟩
  | cons step rest inductionHypothesis =>
      rcases step with ⟨target, weight⟩
      have firstHasWeight : HaveWeights [(target, weight)] := by
        intro node other isStep
        exact haveWeights node other (by simp_all)
      have restHaveWeights : HaveWeights rest :=
        fun node other isStep =>
          haveWeights node other (List.mem_cons_of_mem _ isStep)
      have first : Relaxes pending origin distance [(target, weight)] before
          (before.relax pending origin distance (target, weight)) :=
        relaxes_relax listed isDistance firstHasWeight
      have later :=
        inductionHypothesis (first.keys ▸ listed) restHaveWeights
          (first.hasDistances isDistance firstHasWeight hasDistances)
      exact first.append later isDistance firstHasWeight restHaveWeights
        hasDistances

end Lawful

end Tentative

/-! ## Searching on -/

section Settling

variable
  {Sum : Type} [Weight Sum]
  {arcs : List (Arc Sum)}
  {target : Option String}
  {pending visited : List String}
  {tentative : Tentative Sum}
  {node : String}
  {distance : Sum}

/-- The distances after settling a node. -/
def settle
    (arcs : List (Arc Sum))
    (pending : List String)
    (tentative : Tentative Sum)
    (node : String)
    (distance : Sum) :
    Tentative Sum :=
  tentative.relaxAll arcs (pending.erase node) node distance

/-- What is recorded when a node is settled. -/
def settledAt
    (arcs : List (Arc Sum))
    (pending visited : List String)
    (tentative : Tentative Sum)
    (node : String)
    (distance : Sum) :
    Settled Sum :=
  let next := settle arcs pending tentative node distance
  { node
    distance
    visited := visited ++ [node]
    waiting :=
      (pending.erase node).filter fun other => (next.distance? other).isSome
    distances := next.distances }

/-- A search ends where no pending node has a distance. -/
theorem settleFrom_eq_of_none
    (none : tentative.nearest? pending = none) :
    settleFrom arcs target pending visited tentative = ([], tentative) := by
  rw [settleFrom]
  grind

/-- A search ends with the node it looks for, once that node is the nearest. -/
theorem settleFrom_eq_of_target
    (isNearest : tentative.nearest? pending = some (node, distance))
    (isTarget : target = some node) :
    settleFrom arcs target pending visited tentative =
      ([settledAt arcs pending visited tentative node distance],
        settle arcs pending tentative node distance) := by
  rw [settleFrom]
  grind [settle, settledAt]

/-- Any other nearest node is settled, and the search continues without it. -/
theorem settleFrom_eq_of_other
    (isNearest : tentative.nearest? pending = some (node, distance))
    (isOther : target ≠ some node) :
    settleFrom arcs target pending visited tentative =
      (settledAt arcs pending visited tentative node distance ::
          (settleFrom arcs target (pending.erase node) (visited ++ [node])
            (settle arcs pending tentative node distance)).1,
        (settleFrom arcs target (pending.erase node) (visited ++ [node])
          (settle arcs pending tentative node distance)).2) := by
  rw [settleFrom]
  grind [settle, settledAt]

/-- The distances stay as they are where no pending node has one. -/
theorem settleFrom_of_none
    (none : tentative.nearest? pending = none) :
    (settleFrom arcs target pending visited tentative).2 = tentative :=
  congrArg Prod.snd (settleFrom_eq_of_none none)

/-- A search that meets its target ends with the distances after settling it. -/
theorem settleFrom_of_target
    (isNearest : tentative.nearest? pending = some (node, distance))
    (isTarget : target = some node) :
    (settleFrom arcs target pending visited tentative).2 =
      settle arcs pending tentative node distance :=
  congrArg Prod.snd (settleFrom_eq_of_target isNearest isTarget)

/-- A search that settles any other node ends as the rest of the search does. -/
theorem settleFrom_of_other
    (isNearest : tentative.nearest? pending = some (node, distance))
    (isOther : target ≠ some node) :
    (settleFrom arcs target pending visited tentative).2 =
      (settleFrom arcs target (pending.erase node) (visited ++ [node])
        (settle arcs pending tentative node distance)).2 := by
  rw [settleFrom_eq_of_other isNearest isOther]

/--
What settling a node keeps holds at the end of a search.

At the end no node that is left has been reached, or the target is settled.
-/
theorem settleFrom_ends
    {holds : List String → Tentative Sum → Prop}
    (keeps :
      ∀ {pending tentative node distance},
        holds pending tentative →
        tentative.nearest? pending = some (node, distance) →
        holds (pending.erase node)
          (settle arcs pending tentative node distance))
    (distinct : pending.Nodup)
    (initially : holds pending tentative) :
    ∃ left,
      holds left (settleFrom arcs target pending visited tentative).2 ∧
      ((settleFrom arcs target pending visited tentative).2.nearest? left =
          none ∨
        ∃ node, target = some node ∧ node ∉ left) := by
  induction pending, visited, tentative using settleFrom.induct arcs target with
  | case1 pending visited tentative none =>
      rw [settleFrom_of_none none]
      exact ⟨pending, initially, .inl none⟩
  | case2 pending visited tentative node distance isNearest shorter isTarget =>
      rw [settleFrom_of_target isNearest isTarget]
      exact ⟨pending.erase node, keeps initially isNearest,
        .inr ⟨node, isTarget, distinct.not_mem_erase⟩⟩
  | case3 pending visited tentative node distance isNearest shorter left next
      isOther later last goesOn inductionHypothesis =>
      rw [settleFrom_of_other isNearest isOther]
      exact inductionHypothesis (distinct.erase node)
        (keeps initially isNearest)

/-! ## Searching a graph -/

/-- The search along some arcs from a node of a graph. -/
def searchAlong
    (arcs : List (Arc Sum))
    (graph : Graph)
    (start : String)
    (target : Option String) :
    ShortestPaths Sum :=
  let initial := Tentative.atStart graph.nodeNames start
  { initial
    settled := (settleFrom arcs target graph.nodeNames [] initial).1
    final := (settleFrom arcs target graph.nodeNames [] initial).2 }

/-- A search of a graph succeeds if its nodes and weights allow it. -/
theorem shortestPaths_eq_ok_iff
    {graph : Graph}
    {start : String}
    {search : ShortestPaths Sum} :
    shortestPaths graph start target = .ok search ↔
      2 ≤ graph.nodes.size ∧
      graph.hasNode start = true ∧
      (∀ node, target = some node → graph.hasNode node = true) ∧
      ∃ arcs,
        weightedArcs graph = .ok arcs ∧
        searchAlong arcs graph start target = search := by
  unfold shortestPaths
  by_cases tooFew : graph.nodes.size < 2
  · rw [if_pos tooFew]
    exact ⟨nofun, fun ⟨enough, _⟩ => absurd tooFew (Nat.not_lt.mpr enough)⟩
  · rw [if_neg tooFew]
    by_cases startIsNode : graph.hasNode start = true
    · simp only [startIsNode, Bool.not_true, Bool.false_eq_true, if_false]
      cases missing : target.filter fun node => !graph.hasNode node with
      | some node =>
          obtain ⟨isTarget, notNode⟩ := Option.filter_eq_some_iff.mp missing
          refine ⟨nofun, fun ⟨_, _, targetIsNode, _⟩ => ?_⟩
          simp [targetIsNode node isTarget] at notNode
      | none =>
          have targetIsNode :
              ∀ node, target = some node → graph.hasNode node = true := by
            simpa using Option.filter_eq_none_iff.mp missing
          exact map_eq_ok.trans
            ⟨fun prepared =>
              ⟨Nat.not_lt.mp tooFew, trivial, targetIsNode, prepared⟩,
              fun ⟨_, _, _, prepared⟩ => prepared⟩
    · simp only [startIsNode, Bool.not_false, if_true, Bool.false_eq_true,
        false_and, and_false, iff_false]
      nofun

end Settling

end GraphScript.Search
