import Rankuno.HttpFetcher.Robots
import Rankuno.Python.Lower

/-!
# Lines that a robots.txt parser should not notice

What `parse_robots_txt` makes of a file when a line that it does not understand is put
into it. Such a line is passed over, or it ends the list of agents whose group is being
read: then a `User-agent` line after it begins a group of its own.
-/

namespace Rankuno

open Python Python.Text

/-- The lines of a file. A byte order mark stands in front of them all. -/
def robotsLines (text : Text) : List Text := splitlines (lstrip (fun c => c = '\ufeff') text)

/-- What a line asks of the parser. One that is empty before its comment, without a colon
or a `Sitemap` without an address asks nothing. -/
inductive RobotsDirective where
  | agent (value : Text)
  | sitemap (value : Text)
  | rule (rule : RobotsRule)
  | delay (seconds : ℚ)
  | noted
  deriving DecidableEq

section Directive

variable (unicode : UnicodeData) (readFloat : Text → Option ℚ)

/-- A directive by its field. -/
def directiveOf (field value : Text) : Option RobotsDirective :=
  if field = "user-agent".toList then some (.agent value)
  else if field = "sitemap".toList then if value = [] then none else some (.sitemap value)
  else if field = "allow".toList ∨ field = "disallow".toList then
    if value = [] ∨ maxPatternLength < value.length then some .noted
    else some (.rule ⟨field = "allow".toList, value⟩)
  else if field = "crawl-delay".toList then
    match readFloat value with
    | none => some .noted
    | some seconds => if 0 ≤ seconds then some (.delay seconds) else some .noted
  else some .noted

def readDirective (rawLine : Text) : Option RobotsDirective :=
  match partition ':' (strip isSpace (partition '#' rawLine).1) with
  | (_, none) => none
  | (field, some value) =>
    directiveOf readFloat (unicode.lower (strip isSpace field)) (strip isSpace value)

/-- A field that is none of those the parser knows, or a `Crawl-delay` that is not a number. -/
def InertField (field value : Text) : Prop :=
  (field ≠ "user-agent".toList ∧ field ≠ "allow".toList ∧ field ≠ "disallow".toList ∧
      field ≠ "crawl-delay".toList ∧ field ≠ "sitemap".toList) ∨
    field = "crawl-delay".toList ∧ readFloat value = none

/-- A line that is blank, holds a comment only or has no colon, or whose field is inert. -/
def InertLine (rawLine : Text) : Prop :=
  let parted := partition ':' (strip isSpace (partition '#' rawLine).1)
  ∀ value, parted.2 = some value →
    InertField readFloat (unicode.lower (strip isSpace parted.1)) (strip isSpace value)

end Directive

namespace RobotsParse

variable (unicode : UnicodeData) (s : RobotsParse)

/-- What a directive does. -/
def obey : RobotsDirective → RobotsParse
  | .agent value =>
    let s := if s.acceptingAgents then s else { s.flush with acceptingAgents := true }
    if value = [] then s
    else { s with pendingAgents := s.pendingAgents ++ [unicode.lower value] }
  | .sitemap value => { s with sitemaps := s.sitemaps ++ [value] }
  | .rule rule => { s with acceptingAgents := false, rules := s.rules ++ [rule] }
  | .delay seconds => { s with acceptingAgents := false, crawlDelay := some seconds }
  | .noted => { s with acceptingAgents := false }

/-- The rest of a file. -/
def obeyAll (directives : List RobotsDirective) : RobotsParse :=
  directives.foldl (obey unicode) s

/-- What the parser answers if the file ends here. -/
def finish : RobotsTxt := ⟨s.flush.groups, s.flush.sitemaps⟩

variable {unicode} {s} {readFloat : Text → Option ℚ}

/-- What a line does, if it does anything. -/
def obey? (unicode : UnicodeData) (s : RobotsParse) : Option RobotsDirective → RobotsParse
  | none => s
  | some directive => s.obey unicode directive

theorem directive_eq (field value : Text) : s.directive unicode readFloat field value =
    s.obey? unicode (directiveOf readFloat field value) := by
  rw [directive, directiveOf]
  split
  · rfl
  split
  · split
    · rfl
    · rfl
  split
  · split
    · rfl
    · rfl
  split
  · cases readFloat value with
    | none => rfl
    | some seconds =>
      dsimp only
      split
      · rfl
      · rfl
  · rfl

theorem line_eq (rawLine : Text) : s.line unicode readFloat rawLine =
    s.obey? unicode (readDirective unicode readFloat rawLine) := by
  rw [line, readDirective]
  obtain ⟨field, _ | value⟩ := partition ':' (strip isSpace (partition '#' rawLine).1)
  · rfl
  · exact directive_eq _ _

theorem obeyAll_cons (directive : RobotsDirective) (directives : List RobotsDirective) :
    s.obeyAll unicode (directive :: directives) = (s.obey unicode directive).obeyAll unicode directives :=
  rfl

theorem obeyAll_append (before after : List RobotsDirective) :
    s.obeyAll unicode (before ++ after) = (s.obeyAll unicode before).obeyAll unicode after :=
  List.foldl_append

theorem foldl_line (lines : List Text) : lines.foldl (line unicode readFloat) s =
    s.obeyAll unicode (lines.filterMap (readDirective unicode readFloat)) := by
  induction lines generalizing s with
  | nil => rfl
  | cons rawLine lines ih =>
    rw [List.foldl_cons, ih, line_eq]
    cases read : readDirective unicode readFloat rawLine with
    | none =>
      rw [List.filterMap_cons_none read]
      rfl
    | some directive =>
      rw [List.filterMap_cons_some read]
      rfl

/-- Whether the directives add an agent, a rule or a delay to the group that is open,
before they begin another. -/
def fillsGroup (accepting : Bool) : List RobotsDirective → Bool
  | [] => false
  | .agent value :: rest => accepting && (value ≠ [] || fillsGroup true rest)
  | .sitemap _ :: rest => fillsGroup accepting rest
  | .rule _ :: _ => true
  | .delay _ :: _ => true
  | .noted :: rest => fillsGroup false rest

/-- Whether they add to it, an agent first. -/
def joinsGroup : List RobotsDirective → Bool
  | .sitemap _ :: rest => joinsGroup rest
  | .agent value :: rest => value ≠ [] || fillsGroup true rest
  | _ => false

/-- A group that takes agents has nothing else yet. -/
def Bare (s : RobotsParse) : Prop :=
  s.acceptingAgents = true → s.rules = [] ∧ s.crawlDelay = none

theorem bare_obey (h : Bare s) (directive : RobotsDirective) : Bare (s.obey unicode directive) := by
  cases directive with
  | agent value =>
    have opened : Bare (if s.acceptingAgents then s else { s.flush with acceptingAgents := true }) := by
      split
      · exact h
      · exact fun _ => ⟨rfl, rfl⟩
    rw [obey]
    dsimp only
    split
    · exact opened
    · exact opened
  | sitemap value => exact h
  | rule rule => exact fun accepting => by cases accepting
  | delay seconds => exact fun accepting => by cases accepting
  | noted => exact fun accepting => by cases accepting

theorem bare_obeyAll (h : Bare s) (directives : List RobotsDirective) :
    Bare (s.obeyAll unicode directives) := by
  induction directives generalizing s with
  | nil => exact h
  | cons directive directives ih => exact ih (bare_obey h directive)

theorem flush_of_pending_nil (bare : s.rules = [] ∧ s.crawlDelay = none)
    (nobody : s.pendingAgents = []) : s.flush = s := by
  obtain ⟨groups, sitemaps, pending, rules, delay, accepting⟩ := s
  obtain ⟨rfl, rfl⟩ := bare
  obtain rfl := nobody
  rfl

variable {directives : List RobotsDirective} {index : Nat} {agents : List Text}

theorem finish_flush_obeyAll
    (bare : s.rules = [] ∧ s.crawlDelay = none)
    (unfilled : fillsGroup s.acceptingAgents directives = false) :
    (s.flush.obeyAll unicode directives).finish = (s.obeyAll unicode directives).finish := by
  induction directives generalizing s with
  | nil => rfl
  | cons directive directives ih =>
    cases directive with
    | agent value =>
      cases accepting : s.acceptingAgents with
      | true =>
        rw [accepting, fillsGroup, Bool.true_and, Bool.or_eq_false_iff,
          decide_eq_false_iff_not, not_not] at unfilled
        obtain ⟨rfl, unfilled⟩ := unfilled
        have kept : s.obey unicode (.agent []) = s := by
          rw [obey, accepting]
          rfl
        have flushed : s.flush.obey unicode (.agent []) = s.flush := by
          rw [obey, show s.flush.acceptingAgents = true from accepting]
          rfl
        rw [obeyAll_cons, obeyAll_cons, kept, flushed]
        exact ih bare (by rwa [accepting])
      | false =>
        have same : s.flush.obey unicode (.agent value) = s.obey unicode (.agent value) := by
          rw [obey, obey, accepting, show s.flush.acceptingAgents = false from accepting]
          rfl
        rw [obeyAll_cons, obeyAll_cons, same]
    | sitemap value => exact ih (s := s.obey unicode (.sitemap value)) bare unfilled
    | rule rule => cases unfilled
    | delay seconds => cases unfilled
    | noted => exact ih (s := s.obey unicode .noted) bare unfilled

theorem obey_agent_of_not_accepting (h : s.acceptingAgents = false) (value : Text) :
    s.obey unicode (.agent value) =
      { s.flush with
        acceptingAgents := true
        pendingAgents := if value = [] then [] else [unicode.lower value] } := by
  rw [obey, h]
  dsimp only
  split
  · rfl
  · rfl

theorem obey_agent_of_accepting (h : s.acceptingAgents = true) (value : Text) :
    s.obey unicode (.agent value) =
      if value = [] then s
      else { s with pendingAgents := s.pendingAgents ++ [unicode.lower value] } := by
  rw [obey, if_pos h]

theorem obey_noted_agent (h : s.acceptingAgents = true) (value : Text) :
    (s.obey unicode .noted).obey unicode (.agent value) =
      if value = [] then s.flush
      else { s.flush with pendingAgents := [unicode.lower value] } := by
  obtain ⟨groups, sitemaps, pending, rules, delay, _⟩ := s
  obtain rfl := h
  rw [obey_agent_of_not_accepting rfl]
  split
  · rfl
  · rfl

theorem finish_noted_obeyAll (bare : Bare s)
    (apart : s.acceptingAgents = true → s.pendingAgents ≠ [] → joinsGroup directives = false) :
    ((s.obey unicode .noted).obeyAll unicode directives).finish =
      (s.obeyAll unicode directives).finish := by
  cases accepting : s.acceptingAgents with
  | false =>
    have same : s.obey unicode .noted = s := by
      obtain ⟨groups, sitemaps, pending, rules, delay, _⟩ := s
      obtain rfl := accepting
      rfl
    rw [same]
  | true =>
    induction directives generalizing s with
    | nil => rfl
    | cons directive directives ih =>
      cases directive with
      | agent value =>
        rw [obeyAll_cons, obeyAll_cons, obey_noted_agent accepting,
          obey_agent_of_accepting accepting]
        by_cases nobody : s.pendingAgents = []
        · rw [flush_of_pending_nil (bare accepting) nobody, nobody]
          rfl
        · have unjoined := apart accepting nobody
          rw [joinsGroup, Bool.or_eq_false_iff, decide_eq_false_iff_not, not_not] at unjoined
          rw [if_pos unjoined.1, if_pos unjoined.1]
          exact finish_flush_obeyAll (bare accepting) (by rw [accepting]; exact unjoined.2)
      | sitemap value => exact ih (s := s.obey unicode (.sitemap value)) bare apart accepting
      | rule rule => rfl
      | delay seconds => rfl
      | noted => rfl

theorem groups_kept_by_flush (s : RobotsParse) : s.groups <+: s.flush.groups := by
  rw [flush]
  dsimp only
  split
  · exact List.prefix_refl _
  · exact List.prefix_append _ _

theorem groups_kept_by_obey (directive : RobotsDirective) :
    s.groups <+: (s.obey unicode directive).groups := by
  cases directive with
  | agent value =>
    cases accepting : s.acceptingAgents with
    | true =>
      rw [obey_agent_of_accepting accepting]
      split
      · exact List.prefix_refl _
      · exact List.prefix_refl _
    | false =>
      rw [obey_agent_of_not_accepting accepting]
      exact groups_kept_by_flush s
  | sitemap value => exact List.prefix_refl _
  | rule rule => exact List.prefix_refl _
  | delay seconds => exact List.prefix_refl _
  | noted => exact List.prefix_refl _

variable (unicode) in
theorem groups_kept_by_finish (directives : List RobotsDirective) :
    s.groups <+: (s.obeyAll unicode directives).finish.groups := by
  induction directives generalizing s with
  | nil => exact groups_kept_by_flush s
  | cons directive directives ih =>
    exact List.IsPrefix.trans (groups_kept_by_obey directive) (ih (s := s.obey unicode directive))

theorem groups_flush_of_pending (h : s.pendingAgents ≠ []) :
    s.flush.groups = s.groups ++ [⟨s.pendingAgents, s.rules, s.crawlDelay⟩] :=
  if_neg h

variable (unicode) in
theorem group_of_noted (bare : Bare s)
    (accepting : s.acceptingAgents = true) (somebody : s.pendingAgents ≠ [])
    (joined : joinsGroup directives = true) :
    ((s.obey unicode .noted).obeyAll unicode directives).finish.groups[s.groups.length]? =
      some ⟨s.pendingAgents, [], none⟩ := by
  induction directives generalizing s with
  | nil => cases joined
  | cons directive directives ih =>
    cases directive with
    | agent value =>
      obtain ⟨norules, nodelay⟩ := bare accepting
      have closed : ((s.obey unicode .noted).obey unicode (.agent value)).groups =
          s.groups ++ [⟨s.pendingAgents, [], none⟩] := by
        rw [obey_noted_agent accepting, ← norules, ← nodelay, ← groups_flush_of_pending somebody]
        split
        · rfl
        · rfl
      rw [obeyAll_cons]
      obtain ⟨rest, whole⟩ := groups_kept_by_finish unicode directives
        (s := (s.obey unicode .noted).obey unicode (.agent value))
      rw [← whole, closed, List.append_assoc, List.getElem?_append_right (Nat.le_refl _),
        Nat.sub_self]
      rfl
    | sitemap value =>
      exact ih (s := s.obey unicode (.sitemap value)) bare accepting somebody joined
    | rule rule => cases joined
    | delay seconds => cases joined
    | noted => cases joined

theorem getElem?_of_kept {groups more : List RobotsGroup} {group : RobotsGroup}
    (h : groups <+: more) (found : groups[index]? = some group) : more[index]? = some group := by
  obtain ⟨inside, rfl⟩ := List.getElem?_eq_some_iff.mp found
  exact List.prefix_iff_getElem?.mp h index inside

/-- A group that was `agents` alone has got more: it is closed as such, or still open. -/
def Grown (index : Nat) (agents : List Text) (s : RobotsParse) : Prop :=
  (∃ group, s.groups[index]? = some group ∧ group ≠ ⟨agents, [], none⟩) ∨
    s.groups.length = index ∧ ∃ more, s.pendingAgents = agents ++ more ∧
      (more ≠ [] ∨ s.rules ≠ [] ∨ s.crawlDelay ≠ none)

theorem Grown.flush (somebody : agents ≠ [])
    (h : Grown index agents s) :
    ∃ group, s.flush.groups[index]? = some group ∧ group ≠ ⟨agents, [], none⟩ := by
  obtain ⟨group, found, grown⟩ | ⟨rfl, more, pending, grown⟩ := h
  · exact ⟨group, getElem?_of_kept (groups_kept_by_flush s) found, grown⟩
  · have open' : s.pendingAgents ≠ [] := by
      rw [pending]
      exact List.append_ne_nil_of_left_ne_nil somebody _
    refine ⟨⟨s.pendingAgents, s.rules, s.crawlDelay⟩, ?_, ?_⟩
    · rw [groups_flush_of_pending open', List.getElem?_concat_length]
    · intro same
      obtain ⟨agents_eq, rules_eq, delay_eq⟩ := RobotsGroup.mk.inj same
      rw [pending, List.append_right_eq_self] at agents_eq
      exact grown.elim (absurd agents_eq) fun rest => rest.elim (absurd rules_eq) (absurd delay_eq)

theorem Grown.obey (somebody : agents ≠ [])
    (h : Grown index agents s) (directive : RobotsDirective) :
    Grown index agents (s.obey unicode directive) := by
  have closed : (∃ group, s.groups[index]? = some group ∧ group ≠ ⟨agents, [], none⟩) →
      Grown index agents (s.obey unicode directive) := by
    rintro ⟨group, found, grown⟩
    exact Or.inl ⟨group, getElem?_of_kept (groups_kept_by_obey directive) found, grown⟩
  obtain found | ⟨here, more, pending, grown⟩ := id h
  · exact closed found
  cases directive with
  | agent value =>
    cases accepting : s.acceptingAgents with
    | true =>
      rw [obey_agent_of_accepting accepting]
      split
      · exact h
      · refine Or.inr ⟨here, more ++ [unicode.lower value], ?_, ?_⟩
        · dsimp only
          rw [pending, List.append_assoc]
        · exact Or.inl (List.append_ne_nil_of_right_ne_nil _ (List.cons_ne_nil _ _))
    | false =>
      rw [obey_agent_of_not_accepting accepting]
      exact Or.inl (h.flush somebody)
  | sitemap value => exact h
  | rule rule =>
    exact Or.inr ⟨here, more, pending,
      Or.inr (Or.inl (List.append_ne_nil_of_right_ne_nil _ (List.cons_ne_nil _ _)))⟩
  | delay seconds => exact Or.inr ⟨here, more, pending, Or.inr (Or.inr (Option.some_ne_none _))⟩
  | noted => exact h

theorem Grown.obeyAll (somebody : agents ≠ [])
    (h : Grown index agents s) (directives : List RobotsDirective) :
    Grown index agents (s.obeyAll unicode directives) := by
  induction directives generalizing s with
  | nil => exact h
  | cons directive directives ih => exact ih (h.obey somebody directive)

theorem Grown.obey? (somebody : agents ≠ [])
    (h : Grown index agents s) (directive : Option RobotsDirective) :
    Grown index agents (s.obey? unicode directive) := by
  cases directive with
  | none => exact h
  | some directive => exact h.obey somebody directive

theorem grown_of_fillsGroup {agents more : List Text}
    (somebody : agents ≠ []) (pending : s.pendingAgents = agents ++ more)
    (filled : fillsGroup s.acceptingAgents directives = true) :
    Grown s.groups.length agents (s.obeyAll unicode directives) := by
  induction directives generalizing s more with
  | nil => cases filled
  | cons directive directives ih =>
    cases directive with
    | agent value =>
      rw [fillsGroup, Bool.and_eq_true, Bool.or_eq_true, decide_eq_true_eq] at filled
      obtain ⟨accepting, filled⟩ := filled
      rw [obeyAll_cons, obey_agent_of_accepting accepting]
      split
      · next empty =>
        exact ih pending (by rw [accepting]; exact filled.resolve_left (not_not.mpr empty))
      · refine Grown.obeyAll somebody (Or.inr ⟨rfl, more ++ [unicode.lower value], ?_, ?_⟩) _
        · dsimp only
          rw [pending, List.append_assoc]
        · exact Or.inl (List.append_ne_nil_of_right_ne_nil _ (List.cons_ne_nil _ _))
    | sitemap value => exact ih (s := s.obey unicode (.sitemap value)) pending filled
    | rule rule =>
      exact Grown.obeyAll (s := s.obey unicode (.rule rule)) somebody (Or.inr ⟨rfl, more, pending,
        Or.inr (Or.inl (List.append_ne_nil_of_right_ne_nil _ (List.cons_ne_nil _ _)))⟩) _
    | delay seconds =>
      exact Grown.obeyAll (s := s.obey unicode (.delay seconds)) somebody
        (Or.inr ⟨rfl, more, pending, Or.inr (Or.inr (Option.some_ne_none _))⟩) _
    | noted => exact ih (s := s.obey unicode .noted) pending filled

variable (unicode) in
theorem grown_of_joinsGroup
    (accepting : s.acceptingAgents = true) (somebody : s.pendingAgents ≠ [])
    (joined : joinsGroup directives = true) :
    Grown s.groups.length s.pendingAgents (s.obeyAll unicode directives) := by
  induction directives generalizing s with
  | nil => cases joined
  | cons directive directives ih =>
    cases directive with
    | agent value =>
      refine grown_of_fillsGroup somebody (List.append_nil _).symm ?_
      rw [fillsGroup, accepting]
      exact joined
    | sitemap value => exact ih (s := s.obey unicode (.sitemap value)) accepting somebody joined
    | rule rule => cases joined
    | delay seconds => cases joined
    | noted => cases joined

/-- What the end of the file does not tell from nothing. -/
def AddsNothing (s : RobotsParse) : Option RobotsDirective → Prop
  | none => True
  | some (.agent value) => value = []
  | some (.sitemap _) => False
  | some (.rule _) => s.pendingAgents = []
  | some (.delay seconds) => s.pendingAgents = [] ∨ s.crawlDelay = some seconds
  | some .noted => True

theorem groups_finish_of_pending (h : s.pendingAgents ≠ []) :
    s.finish.groups = s.groups ++ [⟨s.pendingAgents, s.rules, s.crawlDelay⟩] :=
  groups_flush_of_pending h

theorem finish_eq_iff {t : RobotsParse} (groups : t.groups = s.groups)
    (sitemaps : t.sitemaps = s.sitemaps) (pending : t.pendingAgents = s.pendingAgents) :
    t.finish = s.finish ↔
      s.pendingAgents = [] ∨ t.rules = s.rules ∧ t.crawlDelay = s.crawlDelay := by
  by_cases nobody : s.pendingAgents = []
  · refine iff_of_true ?_ (Or.inl nobody)
    rw [finish, finish, flush, flush, groups, sitemaps, pending, if_pos nobody, if_pos nobody]
  · constructor
    · intro same
      have closed := congrArg RobotsTxt.groups same
      rw [groups_finish_of_pending nobody, groups_finish_of_pending (by rwa [pending]), groups,
        List.append_cancel_left_eq, List.cons_eq_cons] at closed
      exact Or.inr (RobotsGroup.mk.inj closed.1).2
    · intro h
      obtain ⟨rules, delay⟩ := h.resolve_left nobody
      rw [finish, finish, flush, flush, groups, sitemaps, pending, rules, delay]

theorem finish_agent_eq_iff (value : Text) :
    (s.obey unicode (.agent value)).finish = s.finish ↔ value = [] := by
  cases accepting : s.acceptingAgents with
  | true =>
    rw [obey_agent_of_accepting accepting]
    split
    · next empty => exact iff_of_true rfl empty
    · next filled =>
      refine iff_of_false (fun same => ?_) filled
      have closed := congrArg RobotsTxt.groups same
      rw [groups_finish_of_pending
        (List.append_ne_nil_of_right_ne_nil _ (List.cons_ne_nil _ _))] at closed
      by_cases nobody : s.pendingAgents = []
      · have none_yet : s.finish.groups = s.groups := if_pos nobody
        rw [none_yet, List.append_right_eq_self] at closed
        cases closed
      · rw [groups_finish_of_pending nobody, List.append_cancel_left_eq, List.cons_eq_cons] at closed
        have agents := (RobotsGroup.mk.inj closed.1).1
        rw [List.append_right_eq_self] at agents
        cases agents
  | false =>
    rw [obey_agent_of_not_accepting accepting]
    split
    · next empty => exact iff_of_true rfl empty
    · next filled =>
      refine iff_of_false (fun same => ?_) filled
      have closed := congrArg RobotsTxt.groups same
      rw [groups_finish_of_pending (List.cons_ne_nil _ _)] at closed
      have more : s.flush.groups ++ [⟨[unicode.lower value], [], none⟩] = s.flush.groups := closed
      rw [List.append_right_eq_self] at more
      cases more

theorem finish_obey?_eq_iff {last : Option RobotsDirective} :
    (s.obey? unicode last).finish = s.finish ↔ s.AddsNothing last := by
  rcases last with _ | ⟨value⟩ | value | rule | seconds | _
  · exact iff_of_true rfl trivial
  · exact finish_agent_eq_iff value
  · refine iff_of_false (fun same => ?_) id
    have sitemaps : s.sitemaps ++ [value] = s.sitemaps := (RobotsTxt.mk.inj same).2
    exact List.cons_ne_nil value [] (List.append_right_eq_self.mp sitemaps)
  · refine (finish_eq_iff (s := s) (t := s.obey unicode (.rule rule)) rfl rfl rfl).trans ?_
    refine or_iff_left fun same => ?_
    exact List.cons_ne_nil rule [] (List.append_right_eq_self.mp same.1)
  · refine (finish_eq_iff (s := s) (t := s.obey unicode (.delay seconds)) rfl rfl rfl).trans ?_
    exact or_congr_right ⟨fun same => same.2.symm, fun same => ⟨rfl, same.symm⟩⟩
  · exact iff_of_true rfl trivial

end RobotsParse

theorem parseRobotsTxt_eq (unicode : UnicodeData) (readFloat : Text → Option ℚ) (text : Text) :
    parseRobotsTxt unicode readFloat text =
      (RobotsParse.obeyAll unicode {} (((robotsLines text).take maxRobotsLines).filterMap
        (readDirective unicode readFloat))).finish := by
  rw [parseRobotsTxt, ← RobotsParse.foldl_line]
  rfl

theorem InertField.directiveOf {readFloat : Text → Option ℚ} {field value : Text}
    (h : InertField readFloat field value) : directiveOf readFloat field value = some .noted := by
  rw [Rankuno.directiveOf]
  obtain ⟨agent, allow, disallow, delay, sitemap⟩ | ⟨rfl, unread⟩ := h
  · rw [if_neg agent, if_neg sitemap, if_neg (not_or.mpr ⟨allow, disallow⟩), if_neg delay]
  · rw [if_neg (by decide), if_neg (by decide), if_neg (by decide), if_pos rfl, unread]

theorem InertLine.readDirective {unicode : UnicodeData} {readFloat : Text → Option ℚ}
    {rawLine : Text} (inert : InertLine unicode readFloat rawLine) :
    readDirective unicode readFloat rawLine = none ∨
      readDirective unicode readFloat rawLine = some .noted := by
  rw [InertLine] at inert
  rw [Rankuno.readDirective]
  generalize partition ':' (strip isSpace (partition '#' rawLine).1) = parted at inert ⊢
  obtain ⟨field, _ | value⟩ := parted
  · exact Or.inl rfl
  · exact Or.inr (inert value rfl).directiveOf

section Insert

variable (unicode : UnicodeData) (readFloat : Text → Option ℚ)

/-- What the parser holds after some lines. -/
def robotsStateAfter (lines : List Text) : RobotsParse :=
  RobotsParse.obeyAll unicode {} (lines.filterMap (readDirective unicode readFloat))

/-- When a line put between others is not noticed. It must not end a list of agents that
others follow whose group has something in it; and a line that it pushes out of the file
must add nothing. -/
structure Unnoticed (before : List Text) (line : Text) (after : List Text) : Prop where
  joins : (robotsStateAfter unicode readFloat before).acceptingAgents = true →
    (robotsStateAfter unicode readFloat before).pendingAgents ≠ [] →
      RobotsParse.joinsGroup ((after.take (maxRobotsLines - before.length - 1)).filterMap
        (readDirective unicode readFloat)) = true → readDirective unicode readFloat line = none
  pushedOut : ∀ last ∈ after.drop (maxRobotsLines - before.length - 1),
    (robotsStateAfter unicode readFloat
        (before ++ after.take (maxRobotsLines - before.length - 1))).AddsNothing
      (readDirective unicode readFloat last)

variable {unicode} {readFloat} {before after : List Text} {line : Text}

theorem bare_robotsStateAfter (lines : List Text) :
    (robotsStateAfter unicode readFloat lines).Bare :=
  RobotsParse.bare_obeyAll (fun accepting => by cases accepting) _

theorem robotsStateAfter_append (before after : List Text) :
    robotsStateAfter unicode readFloat (before ++ after) =
      (robotsStateAfter unicode readFloat before).obeyAll unicode
        (after.filterMap (readDirective unicode readFloat)) := by
  rw [robotsStateAfter, List.filterMap_append, RobotsParse.obeyAll_append]
  rfl

theorem robotsStateAfter_cons (before after : List Text) (line : Text) :
    robotsStateAfter unicode readFloat (before ++ line :: after) =
      ((robotsStateAfter unicode readFloat before).obey? unicode
        (readDirective unicode readFloat line)).obeyAll unicode
          (after.filterMap (readDirective unicode readFloat)) := by
  rw [robotsStateAfter_append]
  cases read : readDirective unicode readFloat line with
  | none =>
    rw [List.filterMap_cons_none read]
    rfl
  | some directive =>
    rw [List.filterMap_cons_some read]
    rfl

theorem silent_of_same (inert : InertLine unicode readFloat line) {last : Option RobotsDirective}
    (same : (robotsStateAfter unicode readFloat (before ++ line :: after)).finish =
      ((robotsStateAfter unicode readFloat (before ++ after)).obey? unicode last).finish)
    (accepting : (robotsStateAfter unicode readFloat before).acceptingAgents = true)
    (somebody : (robotsStateAfter unicode readFloat before).pendingAgents ≠ [])
    (joined : RobotsParse.joinsGroup (after.filterMap (readDirective unicode readFloat)) = true) :
    readDirective unicode readFloat line = none := by
  obtain silent | noted := inert.readDirective
  · exact silent
  · have bare : (robotsStateAfter unicode readFloat before).Bare := bare_robotsStateAfter before
    have split := RobotsParse.group_of_noted unicode bare accepting somebody joined
    have grown := RobotsParse.grown_of_joinsGroup unicode accepting somebody joined
    obtain ⟨group, found, differs⟩ := (grown.obey? somebody last).flush somebody
    rw [robotsStateAfter_cons, robotsStateAfter_append, noted, RobotsParse.obey?] at same
    rw [same] at split
    exact absurd (Option.some.inj (found.symm.trans split)) differs

variable (before after) in
theorem finish_insert_iff (inert : InertLine unicode readFloat line) :
    (robotsStateAfter unicode readFloat (before ++ line :: after)).finish =
        (robotsStateAfter unicode readFloat (before ++ after)).finish ↔
      ((robotsStateAfter unicode readFloat before).acceptingAgents = true →
        (robotsStateAfter unicode readFloat before).pendingAgents ≠ [] →
          RobotsParse.joinsGroup (after.filterMap (readDirective unicode readFloat)) = true →
            readDirective unicode readFloat line = none) := by
  refine ⟨@silent_of_same _ _ _ _ _ inert none, fun h => ?_⟩
  rw [robotsStateAfter_cons, robotsStateAfter_append]
  obtain silent | noted := inert.readDirective
  · rw [silent]
    rfl
  · rw [noted]
    refine RobotsParse.finish_noted_obeyAll (bare_robotsStateAfter before) fun accepting somebody => ?_
    refine Bool.eq_false_iff.mpr fun joined => ?_
    cases noted.symm.trans (h accepting somebody joined)

/-- A file of at most `maxRobotsLines` lines is read the same with a line that means nothing
put into it exactly when that line is not noticed. -/
theorem parseRobotsTxt_insert_iff {text more : Text} (inert : InertLine unicode readFloat line)
    (lines : robotsLines text = before ++ after)
    (inserted : robotsLines more = before ++ line :: after)
    (bounded : (robotsLines text).length ≤ maxRobotsLines) :
    parseRobotsTxt unicode readFloat more = parseRobotsTxt unicode readFloat text ↔
      Unnoticed unicode readFloat before line after := by
  rw [parseRobotsTxt_eq, parseRobotsTxt_eq, List.take_of_length_le bounded, inserted, lines]
  rw [lines, List.length_append] at bounded
  obtain full | room := Nat.eq_or_lt_of_le (Nat.le_trans (Nat.le_add_right _ _) bounded)
  · obtain rfl : after = [] := List.length_eq_zero_iff.mp (by omega)
    rw [← full, List.take_left, List.append_nil]
    refine iff_of_true rfl ⟨fun _ _ joined => ?_, fun last mem => ?_⟩
    · rw [List.take_nil] at joined
      cases joined
    · rw [List.drop_nil] at mem
      cases mem
  · generalize keeps : maxRobotsLines - before.length - 1 = kept
    have read : (before ++ line :: after).take maxRobotsLines = before ++ line :: after.take kept := by
      rw [List.take_append, List.take_of_length_le (Nat.le_of_lt room),
        show maxRobotsLines - before.length = kept + 1 by omega, List.take_succ_cons]
    rw [read]
    change (robotsStateAfter unicode readFloat (before ++ line :: after.take kept)).finish =
      (robotsStateAfter unicode readFloat (before ++ after)).finish ↔ _
    have cut : (after.drop kept).length ≤ 1 := by
      rw [List.length_drop]
      omega
    rcases pushed : after.drop kept with _ | ⟨last, _ | ⟨other, rest⟩⟩
    · have whole : after.take kept = after := by
        have parts := List.take_append_drop kept after
        rwa [pushed, List.append_nil] at parts
      have insert := finish_insert_iff before (after.take kept) inert
      rw [whole] at insert ⊢
      rw [insert]
      refine ⟨fun joins => ⟨?_, ?_⟩, fun h => ?_⟩
      · rwa [keeps, whole]
      · rw [keeps, pushed]
        intro last mem
        cases mem
      · have joins := h.joins
        rwa [keeps, whole] at joins
    · have insert := finish_insert_iff before (after.take kept) inert
      have ends : robotsStateAfter unicode readFloat (before ++ after) =
          (robotsStateAfter unicode readFloat (before ++ after.take kept)).obey? unicode
            (readDirective unicode readFloat last) := by
        have parts := List.take_append_drop kept after
        rw [pushed] at parts
        calc robotsStateAfter unicode readFloat (before ++ after)
          _ = robotsStateAfter unicode readFloat ((before ++ after.take kept) ++ [last]) := by
            rw [List.append_assoc, parts]
          _ = _ := robotsStateAfter_cons _ [] last
      rw [ends]
      refine ⟨fun same => ⟨?_, ?_⟩, fun h => ?_⟩
      · rw [keeps]
        exact silent_of_same inert same
      · rw [keeps, pushed]
        intro only mem
        obtain rfl := List.mem_singleton.mp mem
        rw [insert.mpr (silent_of_same inert same)] at same
        exact RobotsParse.finish_obey?_eq_iff.mp same.symm
      · have joins := h.joins
        have adds := h.pushedOut
        rw [keeps] at joins adds
        rw [pushed] at adds
        rw [insert.mpr joins]
        exact (RobotsParse.finish_obey?_eq_iff.mpr (adds last (List.mem_singleton_self last))).symm
    · rw [pushed] at cut
      simp only [List.length_cons] at cut
      omega

end Insert

section Sample

/-- A crawler's rules, with a comment among them. -/
theorem comment_unnoticed : parseRobotsTxt .ascii (fun _ => none)
      "User-agent: a\n# both\nUser-agent: b\nDisallow: /x".toList =
    parseRobotsTxt .ascii (fun _ => none) "User-agent: a\nUser-agent: b\nDisallow: /x".toList := by
  have silent : readDirective .ascii (fun _ => none) "# both".toList = none := by decide
  have blank : (partition ':' (strip isSpace (partition '#' "# both".toList).1)).2 = none := by
    decide
  refine (@parseRobotsTxt_insert_iff _ _ ["User-agent: a".toList]
    ["User-agent: b".toList, "Disallow: /x".toList] "# both".toList _ _
    (fun value colon => ?_) ?_ ?_ ?_).mpr ⟨fun _ _ _ => silent, fun last mem => ?_⟩
  · cases blank.symm.trans colon
  · decide
  · decide
  · decide
  · have nothing : ["User-agent: b".toList, "Disallow: /x".toList].drop
        (maxRobotsLines - ["User-agent: a".toList].length - 1) = [] :=
      List.drop_eq_nil_of_le (by decide)
    rw [nothing] at mem
    cases mem

/-- A field that the parser does not know comes between two agents, and the rules are for
the second one only. -/
theorem unknown_field_splits : ¬∀ (before after : List Text) (line text more : Text),
    InertLine .ascii (fun _ => none) line → robotsLines text = before ++ after →
      robotsLines more = before ++ line :: after → (robotsLines text).length ≤ maxRobotsLines →
        parseRobotsTxt .ascii (fun _ => none) more =
          parseRobotsTxt .ascii (fun _ => none) text := by
  intro always
  have field : partition ':' (strip isSpace (partition '#' "Host: a.io".toList).1) =
      ("Host".toList, some " a.io".toList) := by decide
  have inert : InertLine .ascii (fun _ => none) "Host: a.io".toList := by
    rw [InertLine, field]
    exact fun value _ => Or.inl (by decide)
  have same := always ["User-agent: a".toList] ["User-agent: b".toList, "Disallow: /x".toList]
    "Host: a.io".toList "User-agent: a\nUser-agent: b\nDisallow: /x".toList
    "User-agent: a\nHost: a.io\nUser-agent: b\nDisallow: /x".toList inert
    (by decide) (by decide) (by decide)
  revert same
  decide

end Sample

end Rankuno
