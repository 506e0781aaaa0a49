import Eef.Coordinator.VerificationTurns

/-!
# Model checks run at most once

Only the call that committed an intent sends anything, and it sends each of the three requests
from one phase that it leaves for good. So at most one request of a kind is sent for a check: its
sender committed the intent, intents stay, and an intent that is held is never committed again.
The lock of the workflow is not needed for it.

`Inv` is split like the steps are: a call is about its own report (`TurnOk`) and its own requests,
and what the others do only adds to the store and to the record (`Later`).
-/

namespace Eef.Coordinator.Verification

open Eef.Lib
open Eef.Node hiding Definition
open Eef.Node.ModelVerification

/-- The place of a request in the order of the phases. -/
def Effect.rank : Effect → Nat
  | .prepare => 0
  | .approve => 1
  | .execute => 2

section

variable [F64] [PeerAdmission] [Sha256] [Pairing] [Planner] [SourceText]

/-! ## The invariant -/

/-- What holds of a call under way. -/
structure CallOk (s : Runtime) (c : Call) : Prop where
  fresh : c.id < s.next
  filled : Filled c.request c.report
  plain : c.report.plain
  going : Going s.rows s.reads c.id c.request c.report c.phase
  ranked : ∀ x ∈ s.sent, x.call = c.id → x.effect.rank < c.phase.rank
  committed : ∀ d, c.phase.committed = some d → ⟨d, c.id⟩ ∈ s.commits
  uncommitted : c.phase.committed = none → c.phase.rank = 0 → ∀ x ∈ s.commits, x.call ≠ c.id
  found : c.found ≠ .nothing → c.report.historical = true ∧ 3 ≤ c.phase.rank
  retained : c.found = .retained → ∀ x ∈ s.commits, x.call ≠ c.id
  reused : c.found = .reused → ∀ x ∈ s.sent, x.call = c.id → x.effect = .prepare

/-- What holds of a report that was built. -/
structure BuiltOk (s : Runtime) (b : Built) : Prop where
  fresh : b.call < s.next
  ended : ∀ c ∈ s.calls, c.id ≠ b.call
  confirmed : confirmed b.report b.request = true
  shown : Shown s.reads s.replies b.call b.report
  found : b.found ≠ .nothing → b.report.historical = true ∧ b.report.requested = false
  retained : b.found = .retained → ∀ x ∈ s.commits, x.call ≠ b.call
  reused : b.found = .reused → ∀ x ∈ s.sent, x.call = b.call → x.effect = .prepare

/-- What the record of commits and requests says. -/
structure Books (s : Runtime) : Prop where
  commits : (s.commits.map Commit.key).Nodup
  held : ∀ x ∈ s.commits, Held s.rows x.definition ∧ x.call < s.next
  once : (s.sent.map fun x => (x.effect, x.call)).Nodup
  sent : ∀ x ∈ s.sent, ∃ k ∈ s.commits, k.key = x.key ∧ k.call = x.call

/-- The invariant of a coordinator. -/
structure Inv (s : Runtime) : Prop where
  admitted : Admitted s.jobs
  books : Books s
  ids : (s.calls.map Call.id).Nodup
  call : ∀ c ∈ s.calls, CallOk s c
  built : ∀ b ∈ s.built, BuiltOk s b

theorem Inv.opened (runtime : String) : Inv (.opened runtime) where
  admitted _ h := by cases h
  books := ⟨List.nodup_nil, nofun, List.nodup_nil, nofun⟩
  ids := List.nodup_nil
  call _ h := by cases h
  built _ h := by cases h

/-! ## What the others do -/

/-- The store and the record grow, by what one call does. -/
structure Adds (s t : Runtime) (call : Nat) : Prop where
  rows : ∃ more, t.rows = s.rows ++ more
  jobs : t.jobs = s.jobs
  next : t.next = s.next
  built : t.built = s.built
  commits : ∀ x ∈ t.commits, x ∈ s.commits ∨ x.call = call
  kept : ∀ x ∈ s.commits, x ∈ t.commits
  sent : ∀ x ∈ t.sent, x ∈ s.sent ∨ x.call = call
  reads : ∀ x ∈ s.reads, x ∈ t.reads
  replies : ∀ x ∈ s.replies, x ∈ t.replies

omit [F64] [PeerAdmission] [Pairing] [Planner] [SourceText] in
theorem Held.append {rows : List IntentRow} {d : ModelVerification.Definition} (h : Held rows d)
    (more : List IntentRow) : Held (rows ++ more) d := by
  induction more generalizing rows with
  | nil => rwa [List.append_nil]
  | cons row more ih =>
    rw [← List.singleton_append, ← List.append_assoc]
    exact ih (h.insert row)

omit [F64] [PeerAdmission] [Sha256] [Pairing] [Planner] [SourceText] in
theorem Adds.refl (s : Runtime) (call : Nat) : Adds s s call :=
  ⟨⟨[], (List.append_nil _).symm⟩, rfl, rfl, rfl, fun _ h => Or.inl h, fun _ h => h,
    fun _ h => Or.inl h, fun _ h => h, fun _ h => h⟩

omit [F64] [PeerAdmission] [Pairing] [Planner] [SourceText] in
theorem Adds.held {s t : Runtime} {call : Nat} (h : Adds s t call) {d : ModelVerification.Definition}
    (hd : Held s.rows d) : Held t.rows d := by
  obtain ⟨more, hmore⟩ := h.rows
  rw [hmore]
  exact hd.append more

theorem Names.mono {reads reads' : List (Nat × Plan)} (hsub : ∀ x ∈ reads, x ∈ reads') {call : Nat}
    {p : Plan} {a : GrantedAttempt} {r : Report} (h : Names reads call p a r) :
    Names reads' call p a r := ⟨hsub _ h.1, h.2⟩

theorem Shown.mono {reads reads' : List (Nat × Plan)} {replies replies' : List (Nat × GrantReport)}
    (hreads : ∀ x ∈ reads, x ∈ reads') (hreplies : ∀ x ∈ replies, x ∈ replies') {call : Nat}
    {r : Report} (h : Shown reads replies call r) : Shown reads' replies' call r := by
  intro hs
  obtain ⟨p, a, f, hnames, hf, hstate⟩ := h hs
  refine ⟨p, a, f, hnames.mono hreads, ?_, hstate⟩
  rcases hf with hf | hf
  · exact Or.inl hf
  · exact Or.inr (hreplies _ hf)

theorem Going.mono {rows rows' : List IntentRow} {reads reads' : List (Nat × Plan)}
    (hrows : ∀ d, Held rows d → Held rows' d) (hreads : ∀ x ∈ reads, x ∈ reads') {call : Nat}
    {request : Request} {r : Report} {phase : Phase} (h : Going rows reads call request r phase) :
    Going rows' reads' call request r phase := by
  cases phase with
  | intent | source | select | reserve | done => exact h
  | prepare | prepared | saved | approve | approved | check | execute | executed =>
    exact ⟨hrows _ h.1, h.2⟩
  | observe =>
    rcases h with h | ⟨d, hheld, h⟩
    · exact Or.inl h
    · exact Or.inr ⟨d, hrows _ hheld, h⟩
  | observePlan intent => cases intent <;> exact h
  | observeResult p a => exact ⟨h.1, h.2.mono hreads⟩

/-- What another call does leaves a call as it is. -/
theorem CallOk.adds {s t : Runtime} {call : Nat} {c : Call} (h : CallOk s c)
    (hadds : Adds s t call) (hne : c.id ≠ call) : CallOk t c where
  fresh := by
    rw [hadds.next]
    exact h.fresh
  filled := h.filled
  plain := h.plain
  going := h.going.mono (fun _ hd => hadds.held hd) hadds.reads
  ranked x hx hid := by
    rcases hadds.sent x hx with hx | hx
    · exact h.ranked x hx hid
    · exact absurd (hid.symm.trans hx) hne
  committed d hd := hadds.kept _ (h.committed d hd)
  uncommitted hnone hrank x hx hid := by
    rcases hadds.commits x hx with hx | hx
    · exact h.uncommitted hnone hrank x hx hid
    · exact hne (hid.symm.trans hx)
  found := h.found
  retained hf x hx hid := by
    rcases hadds.commits x hx with hx | hx
    · exact h.retained hf x hx hid
    · exact hne (hid.symm.trans hx)
  reused hf x hx hid := by
    rcases hadds.sent x hx with hx | hx
    · exact h.reused hf x hx hid
    · exact absurd (hid.symm.trans hx) hne

theorem BuiltOk.adds {s t : Runtime} {call : Nat} {b : Built} (h : BuiltOk s b)
    (hadds : Adds s t call) (hne : b.call ≠ call) (hended : ∀ c ∈ t.calls, c.id ≠ b.call) :
    BuiltOk t b where
  fresh := by
    rw [hadds.next]
    exact h.fresh
  ended := hended
  confirmed := h.confirmed
  shown := h.shown.mono hadds.reads hadds.replies
  found := h.found
  retained hf x hx hid := by
    rcases hadds.commits x hx with hx | hx
    · exact h.retained hf x hx hid
    · exact hne (hid.symm.trans hx)
  reused hf x hx hid := by
    rcases hadds.sent x hx with hx | hx
    · exact h.reused hf x hx hid
    · exact absurd (hid.symm.trans hx) hne

/-! ## Turns in the order of the phases -/

omit [F64] [PeerAdmission] [Sha256] [Pairing] [Planner] [SourceText] in
theorem Finding.or_eq (f g : Finding) : f.or g = f ∨ f.or g = g := by
  cases f with
  | nothing => exact Or.inr rfl
  | _ => exact Or.inl rfl

/-- A phase may follow another one. -/
structure Phase.Next (a b : Phase) : Prop where
  rank : a.rank ≤ b.rank
  committed : ∀ d, b.committed = some d → a.committed = some d
  uncommitted : b.committed = none → b.rank = 0 → a.committed = none

/-- A turn that starts in a phase, when it neither commits nor sends. -/
structure Turn.Follows (t : Turn) (r : Report) (a : Phase) : Prop where
  next : ∀ b, t.2 = .ok b → a.Next b
  finds : ∀ b, t.2 = .ok b → a.finds b ≠ .nothing → t.1.historical = true
  historical : 3 ≤ a.rank → t.1.historical = r.historical

omit [F64] [PeerAdmission] [Sha256] [Pairing] [Planner] [SourceText] in
theorem Phase.rank_le (a : Phase) : a.rank ≤ 3 := by
  cases a <;> simp [Phase.rank]

omit [F64] [PeerAdmission] [Sha256] [Pairing] [Planner] [SourceText] in
theorem Phase.Next.observe {a : Phase} : a.Next .observe := ⟨a.rank_le, nofun, nofun⟩

omit [F64] [PeerAdmission] [Sha256] [Pairing] [Planner] [SourceText] in
theorem Phase.Next.done {a : Phase} : a.Next .done := ⟨a.rank_le, nofun, nofun⟩

omit [F64] [PeerAdmission] [Sha256] [Pairing] [Planner] [SourceText] in
/-- An error follows everything. -/
theorem Turn.Follows.error {r r' : Report} {a : Phase} {e : String}
    (h : 3 ≤ a.rank → r'.historical = r.historical) : Turn.Follows (r', .error e) r a :=
  ⟨fun _ hb => (by cases hb), fun _ hb => (by cases hb), h⟩

omit [F64] [PeerAdmission] [Sha256] [Pairing] [Planner] [SourceText] in
/-- A turn goes on to one phase. -/
theorem Turn.Follows.one {r r' : Report} {a b : Phase} (hnext : a.Next b)
    (hfinds : a.finds b = .nothing) (h : 3 ≤ a.rank → r'.historical = r.historical) :
    Turn.Follows (r', .ok b) r a := by
  refine ⟨fun b' hb => ?_, fun b' hb hf => ?_, h⟩
  · cases hb
    exact hnext
  · cases hb
    exact absurd hfinds hf

omit [F64] [PeerAdmission] [Sha256] [Pairing] [Planner] [SourceText] in
/-- A turn goes over to inspection because of what it found. -/
theorem Turn.Follows.find {r r' : Report} {a : Phase} (hhist : r'.historical = true)
    (h : 3 ≤ a.rank → r'.historical = r.historical) : Turn.Follows (r', .ok .observe) r a := by
  refine ⟨fun b' hb => ?_, fun _ _ _ => hhist, h⟩
  cases hb
  exact .observe

variable {r : Report}

omit [F64] [PeerAdmission] [Sha256] [Pairing] [Planner] [SourceText] in
theorem afterIntent_follows (requested : Option ModelVerification.Definition) (found : Result (Option ModelVerification.Definition)) :
    (afterIntent requested found r).Follows r .intent := by
  unfold afterIntent
  split
  · exact .error nofun
  · exact .one ⟨Nat.le_refl _, nofun, fun _ _ => rfl⟩ rfl nofun
  · split
    · exact .error nofun
    · exact .find rfl nofun

theorem afterSource_follows (requested : Option ModelVerification.Definition) (found : Result (Option Plan)) :
    (afterSource requested found r).Follows r .source := by
  unfold afterSource
  split
  · exact .error nofun
  · exact .one ⟨Nat.le_refl _, nofun, fun _ _ => rfl⟩ rfl nofun
  · exact .one ⟨Nat.le_refl _, nofun, fun _ _ => rfl⟩ rfl nofun
  · split
    · exact .error nofun
    · split
      · exact .error nofun
      · exact .find rfl nofun
  · exact .find rfl nofun

omit [F64] [PeerAdmission] [Sha256] [Pairing] [Planner] [SourceText] in
theorem afterSelect_follows (selected : Except ReadinessIssue ModelVerification.Definition) :
    (afterSelect selected r).Follows r .select := by
  unfold afterSelect
  split
  · exact .one ⟨Nat.le_refl _, nofun, fun _ _ => rfl⟩ rfl nofun
  · exact .one .done rfl nofun

omit [F64] [PeerAdmission] [Sha256] [Pairing] [Planner] [SourceText] in
theorem afterPrepared_follows (runtime : String) (d : ModelVerification.Definition) (reply : Result PrepareReply) :
    (afterPrepared runtime d reply r).Follows r (.prepared d) := by
  have hrank : ∀ {q : Prop}, 3 ≤ (Phase.prepared d).rank → q :=
    fun h => absurd h (by simp [Phase.rank])
  unfold afterPrepared
  split
  · exact .error hrank
  · split
    · exact .error hrank
    · split
      · exact .error hrank
      · exact .one ⟨Nat.le_refl _, fun _ h => h, nofun⟩ rfl hrank

theorem afterSaved_follows (d : ModelVerification.Definition) (reused : Bool) (found : Result (Option Plan)) :
    (afterSaved d reused found r).Follows r (.saved d reused) := by
  have hrank : ∀ {q : Prop}, 3 ≤ (Phase.saved d reused).rank → q :=
    fun h => absurd h (by simp [Phase.rank])
  unfold afterSaved
  split
  · exact .error hrank
  · dsimp only
    split
    · exact .find rfl hrank
    · split
      · exact .error hrank
      · exact .one ⟨Nat.le_refl _, fun _ h => h, nofun⟩ (by cases reused <;> rfl) hrank

theorem afterCheck_follows (d : ModelVerification.Definition) (command : Approve) (found : Result Plan) (now : Nat) :
    (afterCheck d command found now r).Follows r (.check d command) := by
  have hrank : ∀ {q : Prop}, 3 ≤ (Phase.check d command).rank → q :=
    fun h => absurd h (by simp [Phase.rank])
  unfold afterCheck
  split
  · exact .error hrank
  · split
    · exact .error hrank
    · exact .one ⟨Nat.le_refl _, fun _ h => h, nofun⟩ rfl hrank

omit [F64] [PeerAdmission] [Sha256] [Pairing] [Planner] [SourceText] in
theorem afterCommand_follows (result : Result Unit) {a b : Phase} (hnext : a.Next b)
    (hfinds : a.finds b = .nothing) : (afterCommand result b r).Follows r a := by
  unfold afterCommand
  split
  · exact .error fun _ => rfl
  · exact .one hnext hfinds fun _ => rfl

/-! Observation keeps `historical` as it is. -/

omit [F64] [PeerAdmission] [Sha256] [Pairing] [Planner] [SourceText] in
theorem observeIntent_follows (found : Result (Option ModelVerification.Definition)) :
    (observeIntent found r).Follows r .observe := by
  unfold observeIntent
  split
  · exact .error fun _ => rfl
  · exact .one ⟨Nat.le_refl _, nofun, nofun⟩ rfl fun _ => rfl
  · exact .one ⟨Nat.le_refl _, nofun, nofun⟩ rfl fun _ => rfl

omit [Sha256] [PeerAdmission] [Pairing] [Planner] [SourceText] in
theorem historical_withReport [Sha256] [PeerAdmission] {g : ExecutionGrant} {f : GrantReport}
    {evidence : Evidence} {r' : Report}
    {result : Result Unit} (h : withReport g f evidence r = (r', result)) :
    r'.historical = r.historical := by
  unfold withReport at h
  split at h
  · cases h
    rfl
  · cases h
    rfl

omit [Pairing] [Planner] [SourceText] in
/-- The turns of the last two phases end the call, or ask the node. -/
theorem observeNode_follows (a : GrantedAttempt) (result : Retained) {b : Phase} {r' : Report}
    (hr : r'.historical = r.historical) (hb : b.finds .done = .nothing) :
    (observeNode a result r').Follows r b := by
  have hdone : ∀ r'' : Report, r''.historical = r.historical →
      Turn.Follows (r''.observed, .ok .done) r b := by
    intro r'' h
    exact .one .done hb fun _ => h
  unfold observeNode
  split
  · exact hdone _ hr
  · exact .error fun _ => hr
  · split
    · rename_i heq
      exact .error fun _ => (historical_withReport heq).trans hr
    · rename_i heq
      exact hdone _ ((historical_withReport heq).trans hr)

omit [Pairing] [Planner] [SourceText] in
theorem observeResult_follows (p : Plan) (a : GrantedAttempt) (result : Result Retained) :
    (observeResult a result r).Follows r (.observeResult p a) := by
  unfold observeResult
  split
  · split
    · exact .error fun _ => rfl
    · exact observeNode_follows a _ rfl rfl
  · split
    · rename_i heq
      exact .error fun _ => historical_withReport heq
    · rename_i heq
      split
      · exact observeNode_follows a _ (historical_withReport heq) rfl
      · exact observeNode_follows a _ (historical_withReport heq) rfl

theorem observeSource_follows (intent : Option ModelVerification.Definition) (found : Result (Option Plan)) :
    (observeSource intent found r).Follows r (.observePlan intent) := by
  unfold observeSource
  split
  · exact .error fun _ => rfl
  · exact .one .done rfl fun _ => rfl
  · split
    · exact .error fun _ => rfl
    · split
      · exact .error fun _ => rfl
      · dsimp only
        split
        · exact .one .done rfl fun _ => rfl
        · exact .one .done rfl fun _ => rfl
        · unfold observeAttempt
          dsimp only
          split
          · exact .one ⟨Nat.le_refl _, nofun, nofun⟩ rfl fun _ => rfl
          · split
            · rename_i heq
              exact .error fun _ => (historical_withReport heq).trans rfl
            · rename_i heq
              exact .one .done rfl fun _ => (historical_withReport heq).trans rfl
        · exact .error fun _ => rfl

/-! ## A call takes its turn -/

theorem CallOk.frame {s t : Runtime} {c : Call} (h : CallOk s c) (hnext : s.next ≤ t.next)
    (hrows : t.rows = s.rows) (hreads : t.reads = s.reads) (hsent : t.sent = s.sent)
    (hcommits : t.commits = s.commits) : CallOk t c where
  fresh := Nat.lt_of_lt_of_le h.fresh hnext
  filled := h.filled
  plain := h.plain
  going := by
    rw [hrows, hreads]
    exact h.going
  ranked := by
    rw [hsent]
    exact h.ranked
  committed := by
    rw [hcommits]
    exact h.committed
  uncommitted := by
    rw [hcommits]
    exact h.uncommitted
  found := h.found
  retained := by
    rw [hcommits]
    exact h.retained
  reused := by
    rw [hsent]
    exact h.reused

theorem BuiltOk.frame {s t : Runtime} {b : Built} (h : BuiltOk s b) (hnext : s.next ≤ t.next)
    (hended : ∀ c ∈ t.calls, c.id ≠ b.call) (hreads : t.reads = s.reads)
    (hreplies : t.replies = s.replies) (hsent : t.sent = s.sent)
    (hcommits : t.commits = s.commits) : BuiltOk t b where
  fresh := Nat.lt_of_lt_of_le h.fresh hnext
  ended := hended
  confirmed := h.confirmed
  shown := by
    rw [hreads, hreplies]
    exact h.shown
  found := h.found
  retained := by
    rw [hcommits]
    exact h.retained
  reused := by
    rw [hsent]
    exact h.reused

/-- A report that a call may end with. -/
structure Ending (s : Runtime) (c : Call) (r : Report) : Prop where
  confirmed : confirmed r c.request = true
  shown : Shown s.reads s.replies c.id r
  found : c.found ≠ .nothing → r.historical = true ∧ r.requested = false
  retained : c.found = .retained → ∀ x ∈ s.commits, x.call ≠ c.id
  reused : c.found = .reused → ∀ x ∈ s.sent, x.call = c.id → x.effect = .prepare

variable {s s' : Runtime} {pre post : List Call} {c : Call}

omit [F64] [PeerAdmission] [Sha256] [Pairing] [Planner] [SourceText] in
/-- The calls have different numbers. -/
theorem others_ne (hids : ((pre ++ c :: post).map Call.id).Nodup) {u : Call}
    (hu : u ∈ pre ++ post) : u.id ≠ c.id := by
  have hperm : (pre ++ c :: post).Perm (c :: (pre ++ post)) := List.perm_middle
  have hnodup := (hperm.map Call.id).nodup_iff.1 hids
  rw [List.map_cons, List.nodup_cons] at hnodup
  intro heq
  refine hnodup.1 ?_
  rw [← heq]
  exact List.mem_map_of_mem hu

omit [F64] [PeerAdmission] [Sha256] [Pairing] [Planner] [SourceText] in
theorem mem_others {u v : Call} (h : u ∈ pre ++ v :: post) : u = v ∨ u ∈ pre ++ post := by
  rcases List.mem_append.mp h with h | h
  · exact Or.inr (List.mem_append_left _ h)
  · rcases List.mem_cons.mp h with h | h
    · exact Or.inl h
    · exact Or.inr (List.mem_append_right _ h)

omit [F64] [PeerAdmission] [Sha256] [Pairing] [Planner] [SourceText] in
theorem mem_of_others {u v : Call} (h : u ∈ pre ++ post) : u ∈ pre ++ v :: post := by
  rcases List.mem_append.mp h with h | h
  · exact List.mem_append_left _ h
  · exact List.mem_append_right _ (List.mem_cons_of_mem _ h)

/-- The call that takes its turn, and the others. -/
theorem Inv.others (h : Inv s) (hcalls : s.calls = pre ++ c :: post) :
    CallOk s c ∧ ∀ u ∈ pre ++ post, CallOk s u ∧ u.id ≠ c.id := by
  have hids := h.ids
  rw [hcalls] at hids
  refine ⟨h.call c ?_, fun u hu => ⟨h.call u ?_, others_ne hids hu⟩⟩
  · rw [hcalls]
    exact List.mem_append_right _ (List.mem_cons_self ..)
  · rw [hcalls]
    exact mem_of_others hu

theorem Inv.finish (h : Inv s) (hcalls : s.calls = pre ++ c :: post) (hadds : Adds s s' c.id)
    (hbooks : Books s') {r : Report} (hend : Ending s' c r) : Inv (s'.finish pre post c r) := by
  obtain ⟨hc, hothers⟩ := h.others hcalls
  refine ⟨?_, ⟨hbooks.commits, hbooks.held, hbooks.once, hbooks.sent⟩, ?_, ?_, ?_⟩
  · change Admitted s'.jobs
    rw [hadds.jobs]
    exact h.admitted
  · have := h.ids
    rw [hcalls, List.map_append, List.map_cons] at this
    change ((pre ++ post).map Call.id).Nodup
    rw [List.map_append]
    exact this.sublist (List.Sublist.append (List.Sublist.refl _) (List.sublist_cons_self ..))
  · intro u hu
    obtain ⟨hok, hne⟩ := hothers u hu
    exact (hok.adds hadds hne).frame (Nat.le_refl _) rfl rfl rfl rfl
  · intro b hb
    rcases List.mem_cons.mp hb with rfl | hb
    · refine ⟨?_, fun u hu => (hothers u hu).2, hend.confirmed, hend.shown, hend.found,
        hend.retained, hend.reused⟩
      change c.id < s'.next
      rw [hadds.next]
      exact hc.fresh
    · rw [hadds.built] at hb
      have hok := h.built b hb
      have hended := hok.ended
      rw [hcalls] at hended
      refine (hok.adds (t := { s' with calls := pre ++ post }) ⟨hadds.rows, hadds.jobs, hadds.next,
        hadds.built, hadds.commits, hadds.kept, hadds.sent, hadds.reads, hadds.replies⟩
        (hended c (List.mem_append_right _ (List.mem_cons_self ..))).symm
        fun u hu => hended u (mem_of_others hu)).frame (Nat.le_refl _)
        (fun u hu => hended u (mem_of_others hu)) rfl rfl rfl rfl

theorem Inv.go (h : Inv s) (hcalls : s.calls = pre ++ c :: post) (hadds : Adds s s' c.id)
    (hbooks : Books s') {c' : Call} (hid : c'.id = c.id) (hgo : CallOk s' c') :
    Inv { s' with calls := pre ++ c' :: post } := by
  obtain ⟨hc, hothers⟩ := h.others hcalls
  refine ⟨?_, ⟨hbooks.commits, hbooks.held, hbooks.once, hbooks.sent⟩, ?_, ?_, ?_⟩
  · change Admitted s'.jobs
    rw [hadds.jobs]
    exact h.admitted
  · have := h.ids
    rw [hcalls, List.map_append, List.map_cons, ← hid] at this
    change ((pre ++ c' :: post).map Call.id).Nodup
    rwa [List.map_append, List.map_cons]
  · intro u hu
    rcases mem_others hu with rfl | hu
    · exact hgo.frame (Nat.le_refl _) rfl rfl rfl rfl
    · obtain ⟨hok, hne⟩ := hothers u hu
      exact (hok.adds hadds hne).frame (Nat.le_refl _) rfl rfl rfl rfl
  · intro b hb
    change b ∈ s'.built at hb
    rw [hadds.built] at hb
    have hok := h.built b hb
    have hended := hok.ended
    rw [hcalls] at hended
    have hne := hended c (List.mem_append_right _ (List.mem_cons_self ..))
    refine hok.adds ⟨hadds.rows, hadds.jobs, hadds.next, hadds.built, hadds.commits, hadds.kept,
      hadds.sent, hadds.reads, hadds.replies⟩ hne.symm fun u hu => ?_
    rcases mem_others hu with rfl | hu
    · rw [hid]
      exact hne
    · exact hended u (mem_of_others hu)

/-- A call takes its turn. -/
theorem Inv.turn (h : Inv s) (hcalls : s.calls = pre ++ c :: post) (hadds : Adds s s' c.id)
    (hbooks : Books s') {t : Turn}
    (hturn : TurnOk s'.rows s'.reads s'.replies c.id c.request t)
    (hfound : c.found ≠ .nothing → t.1.historical = true)
    (hretained : c.found = .retained → ∀ x ∈ s'.commits, x.call ≠ c.id)
    (hreused : c.found = .reused → ∀ x ∈ s'.sent, x.call = c.id → x.effect = .prepare)
    (hgo : ∀ r b, t = (r, .ok b) → b ≠ .done →
      CallOk s' ⟨c.id, c.request, r, b, c.found.or (c.phase.finds b)⟩) :
    Inv (s'.turn pre post c t) := by
  obtain ⟨r, result⟩ := t
  cases result with
  | error e =>
    obtain ⟨hfilled, hissue⟩ := hturn
    exact h.finish hcalls hadds hbooks ⟨hfilled.failed hissue, nofun,
      fun hf => ⟨hfound hf, hfilled.historical (hfound hf)⟩, hretained, hreused⟩
  | ok b =>
    by_cases hb : b = .done
    · subst hb
      obtain ⟨hfilled, hconcluded, hshown⟩ := hturn
      exact h.finish hcalls hadds hbooks ⟨confirmed_of hfilled hconcluded, hshown,
        fun hf => ⟨hfound hf, hfilled.historical (hfound hf)⟩, hretained, hreused⟩
    · have : Inv { s' with
          calls := pre ++ ⟨c.id, c.request, r, b, c.found.or (c.phase.finds b)⟩ :: post } :=
        h.go hcalls hadds hbooks rfl (hgo r b rfl hb)
      cases b with
      | done => exact absurd rfl hb
      | _ => exact this

/-! ## Kinds of turns -/

omit [F64] [PeerAdmission] [Pairing] [Planner] [SourceText] in
theorem Books.adds {call : Nat} (h : Books s) (hadds : Adds s s' call)
    (hcommits : s'.commits = s.commits) (hsent : s'.sent = s.sent) : Books s' where
  commits := by
    rw [hcommits]
    exact h.commits
  held x hx := by
    rw [hcommits] at hx
    obtain ⟨hheld, hfresh⟩ := h.held x hx
    rw [hadds.next]
    exact ⟨hadds.held hheld, hfresh⟩
  once := by
    rw [hsent]
    exact h.once
  sent := by
    rw [hsent, hcommits]
    exact h.sent

omit [F64] [PeerAdmission] [Sha256] [Pairing] [Planner] [SourceText] in
/-- What is found is inspected next. -/
theorem Phase.finds_observe {a b : Phase} (h : a.finds b ≠ .nothing) : b = .observe := by
  revert h
  cases a <;> cases b <;> simp [Phase.finds]

omit [F64] [PeerAdmission] [Sha256] [Pairing] [Planner] [SourceText] in
theorem Phase.finds_retained {a b : Phase} (h : a.finds b = .retained) :
    a.committed = none ∧ a.rank = 0 := by
  revert h
  cases a with
  | saved d reused => cases reused <;> cases b <;> simp [Phase.finds]
  | _ => cases b <;> simp [Phase.finds, Phase.committed, Phase.rank]

omit [F64] [PeerAdmission] [Sha256] [Pairing] [Planner] [SourceText] in
theorem Phase.finds_reused {a b : Phase} (h : a.finds b = .reused) : a.rank = 1 := by
  revert h
  cases a <;> cases b <;> simp [Phase.finds, Phase.rank]

omit [F64] [PeerAdmission] [Sha256] [Pairing] [Planner] [SourceText] in
/-- Only the preparation has nothing before it. -/
theorem Effect.eq_prepare {e : Effect} (h : e.rank < 1) : e = .prepare := by
  cases e <;> first | rfl | exact absurd h (by decide)

/-- A turn that neither commits nor sends. -/
theorem Inv.quiet (h : Inv s) (hcalls : s.calls = pre ++ c :: post) (hadds : Adds s s' c.id)
    (hcommits : s'.commits = s.commits) (hsent : s'.sent = s.sent) {t : Turn}
    (hturn : TurnOk s'.rows s'.reads s'.replies c.id c.request t)
    (hfollows : t.Follows c.report c.phase) : Inv (s'.turn pre post c t) := by
  obtain ⟨hc, -⟩ := h.others hcalls
  refine h.turn hcalls hadds (h.books.adds hadds hcommits hsent) hturn (fun hf => ?_) ?_ ?_ ?_
  · exact (hfollows.historical (hc.found hf).2).trans (hc.found hf).1
  · rw [hcommits]
    exact hc.retained
  · rw [hsent]
    exact hc.reused
  · rintro r b rfl hb
    have hnext := hfollows.next b rfl
    have hok : Filled c.request r ∧ r.plain ∧ Going s'.rows s'.reads c.id c.request r b := by
      cases b with
      | done => exact absurd rfl hb
      | _ => exact hturn
    -- what the call found before, or finds in this turn
    have hor := Finding.or_eq c.found (c.phase.finds b)
    generalize c.found.or (c.phase.finds b) = f at hor ⊢
    refine ⟨?_, hok.1, hok.2.1, hok.2.2, fun x hx hid => ?_, fun d hd => ?_, ?_, fun hf => ?_,
      fun hf => ?_, fun hf => ?_⟩
    · rw [hadds.next]
      exact hc.fresh
    · rw [hsent] at hx
      exact Nat.lt_of_lt_of_le (hc.ranked x hx hid) hnext.rank
    · rw [hcommits]
      exact hc.committed d (hnext.committed d hd)
    · intro hnone hrank
      rw [hcommits]
      exact hc.uncommitted (hnext.uncommitted hnone hrank)
        (Nat.le_zero.1 (Nat.le_trans hnext.rank (Nat.le_of_eq hrank)))
    · rcases hor with rfl | rfl
      · obtain ⟨hhist, hrank⟩ := hc.found hf
        exact ⟨(hfollows.historical hrank).trans hhist, Nat.le_trans hrank hnext.rank⟩
      · obtain rfl : b = .observe := Phase.finds_observe hf
        exact ⟨hfollows.finds _ rfl hf, Nat.le_refl _⟩
    · rw [hcommits]
      rcases hor with rfl | rfl
      · exact hc.retained hf
      · -- only the phases before a commit find something in place of their own
        obtain ⟨hnone, hrank⟩ := Phase.finds_retained hf
        exact hc.uncommitted hnone hrank
    · rw [hsent]
      rcases hor with rfl | rfl
      · exact hc.reused hf
      · -- and what is reused was found right after the preparation
        intro x hx hid
        have hbehind := hc.ranked x hx hid
        rw [Phase.finds_reused hf] at hbehind
        exact Effect.eq_prepare hbehind

/-- A call that committed an intent sends its next request. -/
theorem Inv.send (h : Inv s) (hcalls : s.calls = pre ++ c :: post) {d : ModelVerification.Definition}
    {effect : Effect} {next : Phase} (hphase : c.phase.committed = some d)
    (hrank : c.phase.rank = effect.rank) (hnext : next.rank = effect.rank + 1)
    (hcommitted : next.committed = some d)
    (hgoing : Going s.rows s.reads c.id c.request c.report next) :
    Inv ({ s with sent := ⟨effect, (d.nodeId, d.operationId), c.id⟩ :: s.sent }.turn pre post c
      (c.report, .ok next)) := by
  obtain ⟨hc, -⟩ := h.others hcalls
  have hcommit := hc.committed d hphase
  have hadds : Adds s { s with sent := ⟨effect, (d.nodeId, d.operationId), c.id⟩ :: s.sent } c.id := by
    refine { Adds.refl s c.id with sent := fun x hx => ?_ }
    rcases List.mem_cons.mp hx with rfl | hx
    · exact Or.inr rfl
    · exact Or.inl hx
  have hlt : effect.rank < 3 := by cases effect <;> decide
  have hnothing : c.found = .nothing := by
    by_contra hf
    have := (hc.found hf).2
    omega
  have hnext' : c.phase.finds next = .nothing := by
    by_contra hf
    rw [Phase.finds_observe hf] at hcommitted
    cases hcommitted
  have hdone : next ≠ .done := by
    rintro rfl
    cases hcommitted
  refine h.turn hcalls hadds ⟨h.books.commits, h.books.held, ?_, ?_⟩ ?_
    (fun hf => absurd hnothing hf) (fun hf => ?_) (fun hf => ?_) ?_
  · rw [List.map_cons, List.nodup_cons]
    refine ⟨fun hmem => ?_, h.books.once⟩
    -- an earlier request of the kind would be behind the phase
    obtain ⟨x, hx, hkey⟩ := List.mem_map.mp hmem
    simp only [Prod.mk.injEq] at hkey
    have hbehind := hc.ranked x hx hkey.2
    rw [hkey.1, hrank] at hbehind
    exact Nat.lt_irrefl _ hbehind
  · intro x hx
    rcases List.mem_cons.mp hx with rfl | hx
    · exact ⟨_, hcommit, rfl, rfl⟩
    · exact h.books.sent x hx
  · cases next with
    | done => exact absurd rfl hdone
    | _ => exact ⟨hc.filled, hc.plain, hgoing⟩
  · rw [hnothing] at hf
    cases hf
  · rw [hnothing] at hf
    cases hf
  · rintro r b hb -
    cases hb
    rw [hnothing, hnext']
    refine ⟨hc.fresh, hc.filled, hc.plain, hgoing, fun x hx hid => ?_, fun d' hd' => ?_,
      fun hnone => ?_, fun hf => absurd rfl hf, nofun, nofun⟩
    · rcases List.mem_cons.mp hx with rfl | hx
      · show effect.rank < next.rank
        omega
      · have := hc.ranked x hx hid
        show x.effect.rank < next.rank
        omega
    · change next.committed = some d' at hd'
      rw [hcommitted] at hd'
      cases hd'
      exact hcommit
    · change next.committed = none at hnone
      rw [hcommitted] at hnone
      cases hnone

/-- The commit of an intent. -/
theorem Inv.commit (h : Inv s) (hcalls : s.calls = pre ++ c :: post) {d : ModelVerification.Definition}
    {runtime : String} {quota : IntentQuota} {now : Nat} {rows : List IntentRow}
    (hphase : c.phase = .reserve d) (hreserve : reserve s.rows d runtime quota now = .ok (rows, true))
    (result : Result Bool) (hresult : ∀ b, result = .ok b → b = true) :
    Inv ({ s with rows, commits := ⟨d, c.id⟩ :: s.commits }.turn pre post c
      (afterReserve d result c.report)) := by
  obtain ⟨hc, -⟩ := h.others hcalls
  obtain ⟨hno, -⟩ | ⟨-, hnone, ⟨row, rfl⟩, hheld⟩ := reserve_ok hreserve
  · cases hno
  have hadds : Adds s { s with rows := s.rows ++ [row], commits := ⟨d, c.id⟩ :: s.commits } c.id := by
    refine { Adds.refl s c.id with rows := ⟨[row], rfl⟩, commits := fun x hx => ?_, kept := ?_ }
    · rcases List.mem_cons.mp hx with rfl | hx
      · exact Or.inr rfl
      · exact Or.inl hx
    · exact fun x hx => List.mem_cons_of_mem _ hx
  have hnothing : c.found = .nothing := by
    by_contra hf
    have := (hc.found hf).2
    rw [hphase] at this
    exact absurd this (by simp [Phase.rank])
  have hgoing := hc.going
  rw [hphase] at hgoing
  have hturn : TurnOk (s.rows ++ [row]) s.reads s.replies c.id c.request
      (afterReserve d result c.report) :=
    afterReserve_ok result hc.filled hc.plain hgoing fun _ _ => hheld
  refine h.turn hcalls hadds ⟨?_, ?_, h.books.once, ?_⟩ hturn (fun hf => absurd hnothing hf)
    (fun hf => ?_) (fun hf => ?_) ?_
  · rw [List.map_cons, List.nodup_cons]
    refine ⟨fun hmem => ?_, h.books.commits⟩
    obtain ⟨x, hx, hkey⟩ := List.mem_map.mp hmem
    have hold := (h.books.held x hx).1
    simp only [Commit.key, Prod.mk.injEq] at hkey
    unfold Held at hold
    rw [hkey.1, hkey.2, hnone] at hold
    cases hold
  · intro x hx
    rcases List.mem_cons.mp hx with rfl | hx
    · exact ⟨hheld, hc.fresh⟩
    · exact ⟨hadds.held (h.books.held x hx).1, (h.books.held x hx).2⟩
  · intro x hx
    obtain ⟨k, hk, hkey⟩ := h.books.sent x hx
    exact ⟨k, List.mem_cons_of_mem _ hk, hkey⟩
  · rw [hnothing] at hf
    cases hf
  · rw [hnothing] at hf
    cases hf
  · intro r b heq hb
    rw [heq] at hturn
    have hprepare : b = .prepare d := by
      unfold afterReserve at heq
      cases result with
      | error e => cases heq
      | ok created =>
        cases hresult created rfl
        cases heq
        rfl
    subst hprepare
    rw [hnothing, hphase]
    refine ⟨hc.fresh, hturn.1, hturn.2.1, hturn.2.2, fun x hx hid => ?_, fun d' hd' => ?_, nofun,
      fun hf => absurd rfl hf, nofun, nofun⟩
    · have := hc.ranked x hx hid
      rw [hphase] at this
      exact this
    · cases hd'
      exact List.mem_cons_self ..

/-! ## Steps -/

omit [F64] [PeerAdmission] [Sha256] [Pairing] [Planner] [SourceText] in
theorem afterReserve_follows (d : ModelVerification.Definition) (result : Result Bool)
    (hresult : ∀ b, result = .ok b → b = false) :
    (afterReserve d result r).Follows r (.reserve d) := by
  have hrank : ∀ {q : Prop}, 3 ≤ (Phase.reserve d).rank → q :=
    fun h => absurd h (by simp [Phase.rank])
  unfold afterReserve
  dsimp only
  split
  · exact .error hrank
  · exact .find rfl hrank
  · cases hresult _ rfl

/-- What a read of the check's source gives. -/
theorem source_of_reads (h : Admitted s.jobs) {node operation : String}
    {found : Result (Option Plan)} (hreads : Reads found (verificationPlan s.jobs node operation)) :
    (∀ p, found = .ok (some p) → p.requestReview.isSome = true → draftId p.planId = true) ∧
      ∀ p d, found = .ok (some p) → fixedSource p = .ok d →
        d.nodeId = node ∧ d.operationId = operation := by
  have hplan : ∀ p, found = .ok (some p) → verificationPlan s.jobs node operation = .ok (some p) := by
    rintro p rfl
    rcases hreads with hreads | ⟨e, he⟩
    · exact hreads.symm
    · cases he
  refine ⟨fun p hp hreviewed => h p (verificationPlan_ok (hplan p hp)).1 hreviewed,
    fun p d hp hd => ?_⟩
  obtain ⟨-, d', hd', hnode, hop⟩ := verificationPlan_ok (hplan p hp)
  rw [hd] at hd'
  cases hd'
  exact ⟨hnode, hop⟩

theorem Inv.callStep {t : Runtime} {phase : Phase} {ok : Bool} (h : Inv s)
    (hcalls : s.calls = pre ++ c :: post) (hphase : c.phase = phase)
    (hstep : CallStep s pre post c phase ok t) : Inv t := by
  obtain ⟨hc, -⟩ := h.others hcalls
  have hgoing := hc.going
  have hadds := Adds.refl s c.id
  rw [hphase] at hgoing
  cases hstep with
  | intent hfound =>
    refine h.quiet hcalls hadds rfl rfl (afterIntent_ok _ hc.filled hc.plain hgoing) ?_
    rw [hphase]
    exact afterIntent_follows _ _
  | source hfound =>
    refine h.quiet hcalls hadds rfl rfl (afterSource_ok _ hc.filled hc.plain hgoing) ?_
    rw [hphase]
    exact afterSource_follows _ _
  | select hselected =>
    refine h.quiet hcalls hadds rfl rfl (afterSelect_ok hc.filled hc.plain hgoing hselected) ?_
    rw [hphase]
    exact afterSelect_follows _
  | commit hreserve => exact h.commit hcalls hphase hreserve _ fun b hb => by cases hb; rfl
  | uncertain e hreserve => exact h.commit hcalls hphase hreserve _ nofun
  | known hreserve =>
    obtain ⟨-, rfl, hheld⟩ | ⟨hno, -⟩ := reserve_ok hreserve
    · refine h.quiet hcalls hadds rfl rfl
        (afterReserve_ok _ hc.filled hc.plain hgoing fun _ _ => hheld) ?_
      rw [hphase]
      exact afterReserve_follows _ _ fun b hb => by cases hb; rfl
    · cases hno
  | refused | unreserved =>
    refine h.quiet hcalls hadds rfl rfl (afterReserve_ok _ hc.filled hc.plain hgoing nofun) ?_
    rw [hphase]
    exact afterReserve_follows _ _ nofun
  | prepare =>
    refine h.send hcalls ?_ ?_ rfl rfl hgoing
    · rw [hphase]
      rfl
    · rw [hphase]
      rfl
  | prepared reply =>
    refine h.quiet hcalls hadds rfl rfl (afterPrepared_ok _ reply hc.filled hc.plain hgoing) ?_
    rw [hphase]
    exact afterPrepared_follows _ _ _
  | saved hfound =>
    refine h.quiet hcalls hadds rfl rfl
      (afterSaved_ok hc.filled hc.plain hgoing (source_of_reads h.admitted hfound).1) ?_
    rw [hphase]
    exact afterSaved_follows _ _ _
  | approve =>
    refine h.send hcalls ?_ ?_ rfl rfl hgoing
    · rw [hphase]
      rfl
    · rw [hphase]
      rfl
  | approved result =>
    refine h.quiet hcalls hadds rfl rfl (afterCommand_ok result hc.filled hc.plain nofun hgoing) ?_
    rw [hphase]
    exact afterCommand_follows result ⟨Nat.le_refl _, fun _ hd => hd, nofun⟩ rfl
  | check now hfound =>
    refine h.quiet hcalls hadds rfl rfl (afterCheck_ok _ now hc.filled hc.plain hgoing) ?_
    rw [hphase]
    exact afterCheck_follows _ _ _ _
  | execute =>
    refine h.send hcalls ?_ ?_ rfl rfl hgoing
    · rw [hphase]
      rfl
    · rw [hphase]
      rfl
  | @executed d result =>
    have hobserve : Going s.rows s.reads c.id c.request c.report .observe :=
      Or.inr ⟨d, hgoing.1, hgoing.2.1, Or.inr hgoing.2.2.1⟩
    refine h.quiet hcalls hadds rfl rfl (afterCommand_ok result hc.filled hc.plain nofun hobserve) ?_
    rw [hphase]
    exact afterCommand_follows result .observe rfl
  | observe hfound =>
    refine h.quiet hcalls hadds rfl rfl (observeIntent_ok hc.filled hc.plain hgoing hfound) ?_
    rw [hphase]
    exact observeIntent_follows _
  | @observePlan intent found hfound =>
    obtain ⟨hjob, hnames⟩ := source_of_reads h.admitted hfound
    have hmore : Adds s { s with
        reads := (found.toOption.join.map fun p => (c.id, p)).toList ++ s.reads } c.id :=
      ⟨hadds.rows, rfl, rfl, rfl, hadds.commits, hadds.kept, hadds.sent,
        fun x hx => List.mem_append_right _ hx, hadds.replies⟩
    refine h.quiet hcalls hmore rfl rfl ?_ ?_
    · refine observeSource_ok hc.filled hc.plain (hgoing.mono (fun _ hd => hd) hmore.reads) ?_ hjob
        hnames
      rintro p rfl
      exact List.mem_append_left _ (List.mem_singleton.2 rfl)
    · rw [hphase]
      exact observeSource_follows _ _
  | observeResult result =>
    have hmore : Adds s { s with
        replies := (result.toOption.join.join.map fun f => (c.id, f)).toList ++ s.replies } c.id :=
      ⟨hadds.rows, rfl, rfl, rfl, hadds.commits, hadds.kept, hadds.sent, hadds.reads,
        fun x hx => List.mem_append_right _ hx⟩
    refine h.quiet hcalls hmore rfl rfl ?_ ?_
    · refine observeResult_ok result hc.filled hc.plain hgoing ?_
      rintro o f rfl hf
      refine List.mem_append_left _ ?_
      rw [show (Except.ok o : Result Retained).toOption.join.join = some f from hf]
      exact List.mem_singleton.2 rfl
    · rw [hphase]
      exact observeResult_follows _ _ _

/-- A call begins. -/
theorem Inv.begin (h : Inv s) {request : Request} {source : String} {phase : Phase}
    {owner : Option Nat} (hreq : s.Accepts request)
    (hsource : receiptId request.nodeId request.operationId "source" none = .ok source)
    (hgoing : Going s.rows s.reads s.next request (.initial s.runtime request source) phase)
    (hcommitted : phase.committed = none) :
    Inv { s.begin request source phase with owner := owner } := by
  have hsent : ∀ x ∈ s.sent, x.call ≠ s.next := by
    intro x hx hid
    obtain ⟨k, hk, -, hcall⟩ := h.books.sent x hx
    have := (h.books.held k hk).2
    omega
  refine ⟨h.admitted, ⟨h.books.commits, fun x hx => ?_, h.books.once, h.books.sent⟩, ?_, ?_, ?_⟩
  · exact ⟨(h.books.held x hx).1, Nat.lt_succ_of_lt (h.books.held x hx).2⟩
  · change (s.next :: s.calls.map Call.id).Nodup
    rw [List.nodup_cons]
    refine ⟨fun hmem => ?_, h.ids⟩
    obtain ⟨u, hu, hid⟩ := List.mem_map.mp hmem
    have := (h.call u hu).fresh
    omega
  · intro u hu
    rcases List.mem_cons.mp hu with rfl | hu
    · refine ⟨Nat.lt_succ_self _, .initial hreq.1 hreq.2 hsource, ⟨rfl, rfl, rfl⟩, hgoing,
        fun x hx hid => absurd hid (hsent x hx), ?_, fun _ _ x hx hid => ?_,
        fun hf => absurd rfl hf, nofun, nofun⟩
      · intro d hd
        change phase.committed = some d at hd
        rw [hcommitted] at hd
        cases hd
      · have := (h.books.held x hx).2
        change x.call = s.next at hid
        omega
    · exact (h.call u hu).frame (Nat.le_succ _) rfl rfl rfl rfl
  · intro b hb
    have hok := h.built b hb
    refine hok.frame (Nat.le_succ _) (fun u hu => ?_) rfl rfl rfl rfl
    rcases List.mem_cons.mp hu with rfl | hu
    · have := hok.fresh
      show s.next ≠ b.call
      omega
    · exact hok.ended u hu

theorem Inv.step {t : Runtime} (h : Inv s) (hstep : Step s t) : Inv t := by
  cases hstep with
  | call hcalls hstep => exact h.callStep hcalls rfl hstep
  | @inspect request source hreq hsource hcommand =>
    have hhist : (Report.initial s.runtime request source).historical = true := by
      unfold Report.initial
      rw [hcommand]
      rfl
    show Inv { s.begin request source .observe with owner := s.owner }
    exact h.begin hreq hsource (Or.inl ⟨hhist, blank_initial ..⟩) rfl
  | @start request source hreq hsource hcommand hfree =>
    have hhist : (Report.initial s.runtime request source).historical = false := by
      unfold Report.initial
      exact beq_eq_false_iff_ne.2 hcommand
    exact h.begin hreq hsource ⟨blank_initial .., hhist, hcommand⟩ rfl
  | @busy request source hreq hsource hcommand hbusy =>
    have hbooks : Books { s with next := s.next + 1 } :=
      ⟨h.books.commits, fun x hx => ⟨(h.books.held x hx).1, Nat.lt_succ_of_lt (h.books.held x hx).2⟩,
        h.books.once, h.books.sent⟩
    refine ⟨h.admitted, ⟨hbooks.commits, hbooks.held, hbooks.once, hbooks.sent⟩, h.ids,
      fun u hu => (h.call u hu).frame (Nat.le_succ _) rfl rfl rfl rfl, fun b hb => ?_⟩
    rcases List.mem_cons.mp hb with rfl | hb
    · refine ⟨Nat.lt_succ_self _, fun u hu => ?_, ?_, nofun, fun hf => absurd rfl hf, nofun, nofun⟩
      · have := (h.call u hu).fresh
        show u.id ≠ s.next
        omega
      · exact (Filled.initial hreq.1 hreq.2 hsource).failed rfl
    · exact (h.built b hb).frame (Nat.le_succ _) (h.built b hb).ended rfl rfl rfl rfl
  | @drop pre post c hcalls =>
    obtain ⟨-, hothers⟩ := h.others hcalls
    refine ⟨h.admitted, ⟨h.books.commits, h.books.held, h.books.once, h.books.sent⟩, ?_, ?_, ?_⟩
    · have := h.ids
      rw [hcalls, List.map_append, List.map_cons] at this
      change ((pre ++ post).map Call.id).Nodup
      rw [List.map_append]
      exact this.sublist (List.Sublist.append (List.Sublist.refl _) (List.sublist_cons_self ..))
    · exact fun u hu => (hothers u hu).1.frame (Nat.le_refl _) rfl rfl rfl rfl
    · intro b hb
      have hok := h.built b hb
      have hended := hok.ended
      rw [hcalls] at hended
      exact hok.frame (Nat.le_refl _) (fun u hu => hended u (mem_of_others hu)) rfl rfl rfl rfl
  | jobs hadmitted =>
    exact ⟨hadmitted, ⟨h.books.commits, h.books.held, h.books.once, h.books.sent⟩, h.ids,
      fun u hu => (h.call u hu).frame (Nat.le_refl _) rfl rfl rfl rfl,
      fun b hb => (h.built b hb).frame (Nat.le_refl _) (h.built b hb).ended rfl rfl rfl rfl⟩
  | restart runtime hruntime =>
    refine ⟨h.admitted, ⟨h.books.commits, h.books.held, h.books.once, h.books.sent⟩, List.nodup_nil,
      fun u hu => absurd hu List.not_mem_nil, fun b hb => ?_⟩
    exact (h.built b hb).frame (Nat.le_refl _) (fun u hu => absurd hu List.not_mem_nil) rfl rfl rfl rfl

theorem Inv.run {t : Runtime} (h : Inv s) (hrun : Run Step s t) : Inv t :=
  Run.invariant (fun _ _ hinv hstep => hinv.step hstep) h hrun

/-! ## What stays -/

/-- What a turn leaves of the other calls and reports: the call goes on, or it ends with a
report. -/
structure Turned (s t : Runtime) (pre post : List Call) (c : Call) : Prop where
  rows : ∃ more, t.rows = s.rows ++ more
  next : t.next = s.next
  kept : ∀ x ∈ s.commits, x ∈ t.commits
  calls : (∃ r, t.calls = pre ++ post ∧ t.built = ⟨c.id, c.request, r, c.found⟩ :: s.built) ∨
    ∃ c', c'.id = c.id ∧ c'.request = c.request ∧ t.calls = pre ++ c' :: post ∧ t.built = s.built

omit [F64] [PeerAdmission] [Sha256] [Pairing] [Planner] [SourceText] in
theorem turned_turn (hrows : ∃ more, s'.rows = s.rows ++ more) (hnext : s'.next = s.next)
    (hkept : ∀ x ∈ s.commits, x ∈ s'.commits) (hbuilt : s'.built = s.built) (t : Turn) :
    Turned s (s'.turn pre post c t) pre post c := by
  obtain ⟨r, result⟩ := t
  have hfinish : ∀ r, Turned s (s'.finish pre post c r) pre post c := by
    intro r
    refine ⟨hrows, hnext, hkept, Or.inl ⟨r, rfl, ?_⟩⟩
    rw [← hbuilt]
    rfl
  cases result with
  | error e => exact hfinish _
  | ok b =>
    by_cases hb : b = .done
    · subst hb
      exact hfinish _
    · have hgo : Turned s { s' with
          calls := pre ++ ⟨c.id, c.request, r, b, c.found.or (c.phase.finds b)⟩ :: post } pre post c :=
        ⟨hrows, hnext, hkept, Or.inr ⟨⟨c.id, c.request, r, b, c.found.or (c.phase.finds b)⟩, rfl, rfl,
          rfl, hbuilt⟩⟩
      cases b with
      | done => exact absurd rfl hb
      | _ => exact hgo

theorem CallStep.turned {t : Runtime} {phase : Phase} {ok : Bool}
    (h : CallStep s pre post c phase ok t) : Turned s t pre post c := by
  have hrefl : ∃ more, s.rows = s.rows ++ more := ⟨[], (List.append_nil _).symm⟩
  have hreserved : ∀ {d : ModelVerification.Definition} {quota now} {rows : List IntentRow} {b : Bool},
      reserve s.rows d s.runtime quota now = .ok (rows, b) → ∃ more, rows = s.rows ++ more := by
    intro d quota now rows b hreserve
    obtain ⟨-, rfl, -⟩ | ⟨-, -, ⟨row, rfl⟩, -⟩ := reserve_ok hreserve
    · exact hrefl
    · exact ⟨[row], rfl⟩
  cases h with
  | commit hreserve | uncertain e hreserve =>
    refine turned_turn ?_ ?_ ?_ ?_ _
    · exact hreserved hreserve
    · rfl
    · exact fun x hx => List.mem_cons_of_mem _ hx
    · rfl
  | known hreserve =>
    refine turned_turn ?_ ?_ ?_ ?_ _
    · exact hreserved hreserve
    · rfl
    · exact fun x hx => hx
    · rfl
  | _ =>
    refine turned_turn ?_ ?_ ?_ ?_ _
    · exact hrefl
    · rfl
    · exact fun x hx => hx
    · rfl

/-- Rows are only added, and commits never forgotten. -/
structure Later (s t : Runtime) : Prop where
  rows : ∃ more, t.rows = s.rows ++ more
  next : s.next ≤ t.next
  commits : ∀ x ∈ s.commits, x ∈ t.commits

omit [F64] [PeerAdmission] [Sha256] [Pairing] [Planner] [SourceText] in
theorem Later.refl (s : Runtime) : Later s s :=
  ⟨⟨[], (List.append_nil _).symm⟩, Nat.le_refl _, fun _ h => h⟩

omit [F64] [PeerAdmission] [Sha256] [Pairing] [Planner] [SourceText] in
theorem Later.trans {s t u : Runtime} (h : Later s t) (h' : Later t u) : Later s u := by
  obtain ⟨more, hmore⟩ := h.rows
  obtain ⟨more', hmore'⟩ := h'.rows
  refine ⟨⟨more ++ more', ?_⟩, Nat.le_trans h.next h'.next, fun x hx => h'.commits x (h.commits x hx)⟩
  rw [hmore', hmore, List.append_assoc]

omit [F64] [PeerAdmission] [Pairing] [Planner] [SourceText] in
theorem Later.held {s t : Runtime} (h : Later s t) {d : ModelVerification.Definition} (hd : Held s.rows d) :
    Held t.rows d := by
  obtain ⟨more, hmore⟩ := h.rows
  rw [hmore]
  exact hd.append more

theorem later_step {t : Runtime} (h : Step s t) : Later s t := by
  have hrows : ∃ more, s.rows = s.rows ++ more := ⟨[], (List.append_nil _).symm⟩
  cases h with
  | call hcalls hstep =>
    have := hstep.turned
    exact ⟨this.rows, Nat.le_of_eq this.next.symm, this.kept⟩
  | inspect | start | busy => exact ⟨hrows, Nat.le_succ _, fun _ h => h⟩
  | drop | jobs | restart => exact ⟨hrows, Nat.le_refl _, fun _ h => h⟩

theorem later_run {t : Runtime} (h : Run Step s t) : Later s t := by
  induction h with
  | refl => exact .refl s
  | tail _ hlast ih => exact ih.trans (later_step hlast)

/-! ## Starts that conflict -/

/-- A request to start the check of a definition with another one. -/
def Conflicts (request : Request) (d : ModelVerification.Definition) : Prop :=
  request.nodeId = d.nodeId ∧ request.operationId = d.operationId ∧
    ∃ d', request.command.definition = some d' ∧ d' ≠ d

omit [F64] [PeerAdmission] [Sha256] [Pairing] [Planner] [SourceText] in
theorem Conflicts.start {request : Request} {d : ModelVerification.Definition} (h : Conflicts request d) :
    request.command ≠ .inspect := by
  obtain ⟨-, -, d', hd', -⟩ := h
  rintro hc
  rw [hc] at hd'
  cases hd'

/-- A report that refuses: nothing is claimed, it is not historical, and it says whether the
call had asked for anything. -/
def Report.refuses (r : Report) (asked : Bool) : Prop :=
  r.state = .unconfirmed ∧ r.success = false ∧ r.historical = false ∧ r.requested = asked

/-- A call refuses: it ends with such a report, and the store stays as it is. -/
def Refuses (s t : Runtime) (pre post : List Call) (c : Call) (asked : Bool) : Prop :=
  t.rows = s.rows ∧ t.commits = s.commits ∧ t.sent = s.sent ∧ t.calls = pre ++ post ∧
    ∃ r : Report, r.refuses asked ∧ t.built = ⟨c.id, c.request, r, c.found⟩ :: s.built

/-- A call goes over to inspection. -/
def Inspects (s t : Runtime) (pre post : List Call) (c : Call) : Prop :=
  t.rows = s.rows ∧ t.commits = s.commits ∧ t.sent = s.sent ∧ t.built = s.built ∧
    ∃ (r : Report) (f : Finding), r.historical = true ∧ r.requested = false ∧ f ≠ .nothing ∧
      t.calls = pre ++ ⟨c.id, c.request, r, .observe, f⟩ :: post

omit [F64] [PeerAdmission] [Sha256] [Pairing] [Planner] [SourceText] in
theorem refuses_turn {r : Report} {asked : Bool} (hhist : r.historical = false)
    (hasked : r.requested = asked) (e : String) :
    Refuses s (s.turn pre post c (r, .error e)) pre post c asked :=
  ⟨rfl, rfl, rfl, rfl, r.failed, ⟨rfl, rfl, hhist, hasked⟩, rfl⟩

omit [F64] [PeerAdmission] [Sha256] [Pairing] [Planner] [SourceText] in
theorem inspects_turn {r : Report} (hhist : r.historical = true) (hasked : r.requested = false)
    (hfinds : c.phase.finds .observe ≠ .nothing) :
    Inspects s (s.turn pre post c (r, .ok .observe)) pre post c := by
  refine ⟨rfl, rfl, rfl, rfl, r, c.found.or (c.phase.finds .observe), hhist, hasked, ?_, rfl⟩
  cases hfound : c.found with
  | nothing => exact hfinds
  | _ => nofun

/-- A call that conflicts with a held intent is refused at its first look. -/
theorem refuses_of_conflict {t : Runtime} {d : ModelVerification.Definition} {ok : Bool}
    (hheld : Held s.rows d) (hconflict : Conflicts c.request d)
    (hhist : c.report.historical = false) (hrequested : c.report.requested = false)
    (hstep : CallStep s pre post c .intent ok t) : Refuses s t pre post c false := by
  obtain ⟨hnode, hop, d', hd', hne⟩ := hconflict
  cases hstep with
  | intent hfound =>
    rw [hd']
    rcases hfound with rfl | ⟨e, rfl⟩
    · unfold Held at hheld
      rw [hnode, hop, hheld]
      have : (some d').any (· ≠ d) = true := by simpa using hne
      simp only [afterIntent, this, if_true]
      exact refuses_turn hhist hrequested _
    · exact refuses_turn hhist hrequested e

/-- The calls and reports from number `n` on that conflict with an intent. -/
structure Refused (n : Nat) (d : ModelVerification.Definition) (s : Runtime) : Prop where
  held : Held s.rows d
  fresh : n ≤ s.next
  calls : ∀ c ∈ s.calls, n ≤ c.id → Conflicts c.request d →
    c.phase = .intent ∧ c.report.historical = false ∧ c.report.requested = false
  built : ∀ b ∈ s.built, n ≤ b.call → Conflicts b.request d → b.report.refuses false

theorem Refused.step {n : Nat} {d : ModelVerification.Definition} {t : Runtime} (h : Refused n d s)
    (hstep : Step s t) : Refused n d t := by
  have hlater := later_step hstep
  have hheld := hlater.held h.held
  have hfresh := Nat.le_trans h.fresh hlater.next
  cases hstep with
  | @call _ pre post c ok hcalls hcall =>
    have hmem : c ∈ s.calls := by
      rw [hcalls]
      exact List.mem_append_right _ (List.mem_cons_self ..)
    have hother : ∀ u ∈ pre ++ post, u ∈ s.calls := by
      intro u hu
      rw [hcalls]
      exact mem_of_others hu
    by_cases hconflict : n ≤ c.id ∧ Conflicts c.request d
    · obtain ⟨hphase, hhist, hrequested⟩ := h.calls c hmem hconflict.1 hconflict.2
      rw [hphase] at hcall
      obtain ⟨-, -, -, hrest, r, hr, hbuilt⟩ :=
        refuses_of_conflict h.held hconflict.2 hhist hrequested hcall
      refine ⟨hheld, hfresh, fun u hu => ?_, fun b hb hn hc => ?_⟩
      · rw [hrest] at hu
        exact h.calls u (hother u hu)
      · rw [hbuilt] at hb
        rcases List.mem_cons.mp hb with rfl | hb
        · exact hr
        · exact h.built b hb hn hc
    · rcases hcall.turned.calls with ⟨r, hrest, hbuilt⟩ | ⟨c', hid, hreq, hrest, hbuilt⟩
      · refine ⟨hheld, hfresh, fun u hu => ?_, fun b hb hn hc => ?_⟩
        · rw [hrest] at hu
          exact h.calls u (hother u hu)
        · rw [hbuilt] at hb
          rcases List.mem_cons.mp hb with rfl | hb
          · exact absurd ⟨hn, hc⟩ hconflict
          · exact h.built b hb hn hc
      · refine ⟨hheld, hfresh, fun u hu hn hc => ?_, fun b hb => ?_⟩
        · rw [hrest] at hu
          rcases mem_others hu with rfl | hu
          · rw [hid] at hn
            rw [hreq] at hc
            exact absurd ⟨hn, hc⟩ hconflict
          · exact h.calls u (hother u hu) hn hc
        · rw [hbuilt] at hb
          exact h.built b hb
  | inspect hreq hsource hcommand =>
    refine ⟨hheld, hfresh, fun u hu hn hc => ?_, h.built⟩
    rcases List.mem_cons.mp hu with rfl | hu
    · exact absurd hcommand hc.start
    · exact h.calls u hu hn hc
  | start hreq hsource hcommand hfree =>
    refine ⟨hheld, hfresh, fun u hu hn hc => ?_, h.built⟩
    rcases List.mem_cons.mp hu with rfl | hu
    · exact ⟨rfl, beq_eq_false_iff_ne.2 hcommand, rfl⟩
    · exact h.calls u hu hn hc
  | busy hreq hsource hcommand hbusy =>
    refine ⟨hheld, hfresh, h.calls, fun b hb hn hc => ?_⟩
    rcases List.mem_cons.mp hb with rfl | hb
    · exact ⟨rfl, rfl, beq_eq_false_iff_ne.2 hcommand, rfl⟩
    · exact h.built b hb hn hc
  | drop hcalls =>
    refine ⟨hheld, hfresh, fun u hu => ?_, h.built⟩
    refine h.calls u ?_
    rw [hcalls]
    exact mem_of_others hu
  | jobs hadmitted => exact ⟨hheld, hfresh, h.calls, h.built⟩
  | restart runtime hruntime =>
    exact ⟨hheld, hfresh, fun u hu => absurd hu List.not_mem_nil, h.built⟩

/-- Every start with another definition, of a call after the commit, is refused. -/
theorem Inv.refused {t : Runtime} {d : ModelVerification.Definition} (h : Inv s) (hheld : Held s.rows d)
    (hrun : Run Step s t) : Refused s.next d t := by
  refine Run.invariant (fun _ _ hr hstep => hr.step hstep) ?_ hrun
  refine ⟨hheld, Nat.le_refl _, fun c hc hn => ?_, fun b hb hn => ?_⟩
  · have := (h.call c hc).fresh
    omega
  · have := (h.built b hb).fresh
    omega

/-! ## Calls that find something -/

/-- The definition of the source that was read. -/
def sourceOf (found : Result (Option Plan)) : Result (Option ModelVerification.Definition) := do
  match ← found with
  | none => return none
  | some p => return some (← fixedSource p)

theorem sourceOf_some {p : Plan} {d : ModelVerification.Definition} (hd : fixedSource p = .ok d) :
    sourceOf (.ok (some p)) = .ok (some d) := by
  show (fixedSource p >>= fun d => pure (some d)) = _
  rw [hd]
  rfl

omit [F64] [PeerAdmission] [Sha256] [Pairing] [Planner] [SourceText] in
/-- Whether something is retained, and whether a call may go on with it: it can be read, and is
not another definition than the wanted one. -/
def agrees (wanted : Option ModelVerification.Definition) :
    Result (Option ModelVerification.Definition) → Option Bool
  | .ok none => none
  | .ok (some d) => some (wanted.all (· = d))
  | .error _ => some false

/-- What a call finds retained in a phase, and whether it may go on with it. After its own commit
that is the source which a reused creation answers its preparation with. -/
def Runtime.finds (s : Runtime) (request : Request) : Phase → Option Bool
  | .intent => agrees request.command.definition
      (readIntent s.rows request.nodeId request.operationId)
  | .source => agrees request.command.definition
      (sourceOf (verificationPlan s.jobs request.nodeId request.operationId))
  | .reserve d => agrees (some d) (readIntent s.rows d.nodeId d.operationId)
  | .saved d true => agrees (some d) (sourceOf (verificationPlan s.jobs d.nodeId d.operationId))
  | _ => none

/-- The turn of a call that found something: it inspects where it may, and fails otherwise. -/
inductive Turn.Decides (r : Report) : Turn → Bool → Prop where
  | inspects {r' : Report} (hhist : r'.historical = true) (hasked : r'.requested = false) :
    Turn.Decides r (r', .ok .observe) true
  | fails {r' : Report} {e : String} (hhist : r'.historical = r.historical)
    (hasked : r'.requested = r.requested) : Turn.Decides r (r', .error e) false

omit [F64] [PeerAdmission] [Sha256] [Pairing] [Planner] [SourceText] in
/-- What is found is another definition than the wanted one, or the same. -/
theorem any_ne_eq (wanted : Option ModelVerification.Definition) (d : ModelVerification.Definition) :
    wanted.any (· ≠ d) = !wanted.all (· = d) := by
  cases wanted <;> simp

omit [F64] [PeerAdmission] [Sha256] [Pairing] [Planner] [SourceText] in
theorem afterIntent_decides {wanted : Option ModelVerification.Definition}
    {found actual : Result (Option ModelVerification.Definition)} {good : Bool}
    (hr : r.requested = false) (hreads : Reads found actual)
    (hgood : agrees wanted actual = some good) :
    (afterIntent wanted found r).Decides r (good && isOk found) := by
  rcases hreads with rfl | ⟨e, rfl⟩
  · rcases found with e | _ | d
    · cases hgood
      exact .fails rfl rfl
    · cases hgood
    · obtain rfl := Option.some.inj hgood
      simp only [afterIntent, any_ne_eq, isOk, Bool.and_true]
      cases wanted.all (· = d) with
      | true => exact .inspects rfl hr
      | false => exact .fails rfl rfl
  · rw [show isOk (.error e : Result (Option ModelVerification.Definition)) = false from rfl,
      Bool.and_false]
    exact .fails rfl rfl

theorem afterSource_decides {wanted : Option ModelVerification.Definition}
    {found actual : Result (Option Plan)} {good : Bool} (hr : r.requested = false)
    (hreads : Reads found actual) (hfixed : ∀ p, actual = .ok (some p) → ∃ d, fixedSource p = .ok d)
    (hgood : agrees wanted (sourceOf actual) = some good) :
    (afterSource wanted found r).Decides r (good && isOk found) := by
  rcases hreads with rfl | ⟨e, rfl⟩
  · rcases found with e | _ | p
    · cases hgood
      exact .fails rfl rfl
    · cases hgood
    · obtain ⟨d, hd⟩ := hfixed p rfl
      rw [sourceOf_some hd] at hgood
      obtain rfl := Option.some.inj hgood
      cases wanted with
      | none => exact .inspects rfl hr
      | some d' =>
        simp only [afterSource, hd, Option.all_some, isOk, Bool.and_true]
        by_cases hsame : d' = d
        · rw [if_neg (not_not.2 hsame.symm), decide_eq_true hsame]
          exact .inspects rfl hr
        · rw [if_pos (Ne.symm hsame), decide_eq_false hsame]
          exact .fails rfl rfl
  · rw [show isOk (.error e : Result (Option Plan)) = false from rfl, Bool.and_false]
    exact .fails rfl rfl

/-- A source that was there before the preparation is only inspected. -/
theorem afterSaved_decides {d : ModelVerification.Definition} {found actual : Result (Option Plan)}
    {good : Bool} (hr : r.ownerApprovalRequested = false ∧ r.executionRequested = false)
    (hreads : Reads found actual) (hfixed : ∀ p, actual = .ok (some p) → ∃ d, fixedSource p = .ok d)
    (hgood : agrees (some d) (sourceOf actual) = some good) :
    (afterSaved d true found r).Decides r (good && isOk found) := by
  rcases hreads with rfl | ⟨e, rfl⟩
  · rcases found with e | _ | p
    · cases hgood
      exact .fails rfl rfl
    · cases hgood
    · obtain ⟨d', hd'⟩ := hfixed p rfl
      rw [sourceOf_some hd'] at hgood
      obtain rfl := Option.some.inj hgood
      by_cases hsame : d = d'
      · have hsaved : savedSource d (.ok (some p)) = .ok p := by
          simp only [savedSource, bind_ok, context_ok, bailIf_ok, pure_ok]
          exact ⟨some p, rfl, p, rfl, d', hd', (), not_not.2 hsame.symm, rfl⟩
        simp only [afterSaved, hsaved, if_true, Option.all_some, decide_eq_true hsame, isOk,
          Bool.and_true]
        exact .inspects rfl (by simp [Report.requested, hr.1, hr.2])
      · have hsaved : ∃ e, savedSource d (.ok (some p)) = .error e := by
          cases hs : savedSource d (.ok (some p)) with
          | error e => exact ⟨e, rfl⟩
          | ok q =>
            exfalso
            simp only [savedSource, bind_ok, context_ok, bailIf_ok, pure_ok] at hs
            obtain ⟨_, hp, p', rfl, d'', hd'', _, heq, -⟩ := hs
            cases hp
            rw [hd'] at hd''
            cases hd''
            exact hsame (not_not.1 heq).symm
        obtain ⟨e, he⟩ := hsaved
        simp only [afterSaved, he, Option.all_some, decide_eq_false hsame, Bool.false_and]
        exact .fails rfl rfl
  · rw [show isOk (.error e : Result (Option Plan)) = false from rfl, Bool.and_false]
    exact .fails rfl rfl

omit [F64] [PeerAdmission] [Sha256] [Pairing] [Planner] [SourceText] in
/-- A turn that decides is the step of a call that inspects or refuses. -/
theorem decides_turn {t : Turn} {good asked : Bool} (h : t.Decides c.report good)
    (hhist : c.report.historical = false) (hasked : c.report.requested = asked)
    (hfinds : c.phase.finds .observe ≠ .nothing) :
    if good then Inspects s (s.turn pre post c t) pre post c
    else Refuses s (s.turn pre post c t) pre post c asked := by
  cases h with
  | inspects hr hnone => exact inspects_turn hr hnone hfinds
  | fails hr hsame => exact refuses_turn (hr.trans hhist) (hsame.trans hasked) _

/-- A call that finds something inspects it, if it is the wanted definition and the store
answers, and refuses otherwise. -/
theorem Inv.finds {t : Runtime} {good ok : Bool} (h : Inv s) (hcalls : s.calls = pre ++ c :: post)
    (hfinds : s.finds c.request c.phase = some good) (hstep : CallStep s pre post c c.phase ok t) :
    if good && ok then Inspects s t pre post c
    else Refuses s t pre post c c.phase.committed.isSome := by
  obtain ⟨hc, -⟩ := h.others hcalls
  have hgoing := hc.going
  have hblank : c.report.blank → c.report.requested = false := fun h => h.2.2.2.2.2.2
  have hfixed : ∀ {node operation : String} p, verificationPlan s.jobs node operation =
      .ok (some p) → ∃ d, fixedSource p = .ok d := by
    intro node operation p hp
    obtain ⟨-, d, hd, -⟩ := verificationPlan_ok hp
    exact ⟨d, hd⟩
  cases hphase : c.phase with
  | intent =>
    rw [hphase] at hfinds hstep hgoing
    cases hstep with
    | intent hfound =>
      exact decides_turn (afterIntent_decides (hblank hgoing.1) hfound hfinds) hgoing.2.1
        (hblank hgoing.1) (by simp [hphase, Phase.finds])
  | source =>
    rw [hphase] at hfinds hstep hgoing
    cases hstep with
    | source hfound =>
      exact decides_turn (afterSource_decides (hblank hgoing.1) hfound hfixed hfinds) hgoing.2.1
        (hblank hgoing.1) (by simp [hphase, Phase.finds])
  | reserve d =>
    rw [hphase] at hfinds hstep hgoing
    have hrefuses : ∀ e, Refuses s (s.turn pre post c (afterReserve d (.error e) c.report)) pre post
        c false := fun e =>
      refuses_turn (r := { c.report with definition := some d }) hgoing.2.1 (hblank hgoing.1) e
    change agrees (some d) (readIntent s.rows d.nodeId d.operationId) = some good at hfinds
    cases hstep with
    | commit hreserve | uncertain e hreserve =>
      obtain ⟨hno, -⟩ | ⟨-, hnone, -⟩ := reserve_ok hreserve
      · cases hno
      · rw [hnone] at hfinds
        cases hfinds
    | known hreserve =>
      obtain ⟨-, rfl, hheld⟩ | ⟨hno, -⟩ := reserve_ok hreserve
      · rw [show readIntent s.rows d.nodeId d.operationId = .ok (some d) from hheld] at hfinds
        obtain rfl : decide (d = d) = good := Option.some.inj hfinds
        rw [decide_eq_true rfl]
        exact inspects_turn rfl (hblank hgoing.1) (by simp [hphase, Phase.finds])
      · cases hno
    | @refused _ quota now e hvalid hreserve =>
      -- a valid intent is only refused for another one, or one that cannot be read
      cases good with
      | false => exact hrefuses e
      | true =>
        exfalso
        cases hread : readIntent s.rows d.nodeId d.operationId with
        | error e =>
          rw [hread] at hfinds
          cases hfinds
        | ok o =>
          rw [hread] at hfinds
          cases o with
          | none => cases hfinds
          | some d' =>
            obtain rfl : d = d' := of_decide_eq_true (Option.some.inj hfinds)
            have hknown : reserve s.rows d s.runtime quota now = .ok (s.rows, false) := by
              simp only [reserve, bind_ok]
              refine ⟨(), hvalid, some d, hread, ?_⟩
              simp only [bind_ok, bailIf_ok, pure_ok]
              exact ⟨(), fun hne => hne rfl, trivial⟩
            rw [hknown] at hreserve
            cases hreserve
    | unreserved e =>
      rw [Bool.and_false]
      exact hrefuses e
  | saved d reused =>
    rw [hphase] at hfinds hstep hgoing
    cases reused with
    | false => cases hfinds
    | true =>
      obtain ⟨-, -, -, hhist, -, hprepared, happroval, hexecution⟩ := hgoing
      cases hstep with
      | saved hfound =>
        refine decides_turn (afterSaved_decides ⟨happroval, hexecution⟩ hfound hfixed hfinds) hhist
          ?_ (by simp [hphase, Phase.finds])
        simp [Report.requested, hprepared, Phase.committed]
  | _ =>
    rw [hphase] at hfinds
    cases hfinds

/-! ## At most once -/

/-- A call neither commits nor sends anything. -/
def Idle (s : Runtime) (call : Nat) : Prop :=
  (∀ x ∈ s.commits, x.call ≠ call) ∧ ∀ x ∈ s.sent, x.call ≠ call

/-- What a call that found something has asked for: nothing, or the preparation alone where it
found a source after that. -/
def Asked (s : Runtime) (found : Finding) (call : Nat) : Prop :=
  (found = .retained → Idle s call) ∧
    (found = .reused → ∀ x ∈ s.sent, x.call = call → x.effect = .prepare)

/-- What holds of a coordinator at any time. -/
structure AtMostOnce (s : Runtime) : Prop where
  once : (s.sent.map fun x => (x.effect, x.key)).Nodup
  sender : ∀ x ∈ s.sent, ∃ k ∈ s.commits, k.key = x.key ∧ k.call = x.call
  commits : (s.commits.map Commit.key).Nodup
  held : ∀ k ∈ s.commits, Held s.rows k.definition
  inspecting : ∀ c ∈ s.calls, c.found ≠ .nothing →
    c.report.historical = true ∧ c.report.requested = false ∧ Asked s c.found c.id
  inspected : ∀ b ∈ s.built, b.found ≠ .nothing →
    b.report.historical = true ∧ b.report.requested = false ∧ Asked s b.found b.call
  returned : ∀ b ∈ s.built, b.report.state = .returnedText → ∃ p a f,
    Names s.reads b.call p a b.report ∧ (a.finalReport = some f ∨ (b.call, f) ∈ s.replies) ∧
      f.confirms a.grant ∧ f.state = .completed ∧ f.success = true
  confirmed : ∀ b ∈ s.built, confirmed b.report b.request = true

omit [Pairing] [Planner] [SourceText] in
/-- Returned text is that of a completed report of this grant. -/
theorem reportState_returned {g : ExecutionGrant} {f : GrantReport}
    (h : reportState g f = .ok .returnedText) :
    f.confirms g ∧ f.state = .completed ∧ f.success = true := by
  simp only [reportState, bind_ok, bailIf_ok, not_or, not_not, pure_ok] at h
  obtain ⟨_, -, _, ⟨hconfirms, -⟩, h⟩ := h
  refine ⟨hconfirms, ?_⟩
  split at h
  · rename_i hstate
    split at h
    · rename_i hsuccess
      exact ⟨hstate, hsuccess⟩
    · cases h
  · cases h
  · cases h
  · cases h

omit [F64] [PeerAdmission] [Pairing] [Planner] [SourceText] in
theorem Books.idle (h : Books s) {call : Nat} (hnone : ∀ x ∈ s.commits, x.call ≠ call) :
    Idle s call := by
  refine ⟨hnone, fun x hx hid => ?_⟩
  obtain ⟨k, hk, -, hcall⟩ := h.sent x hx
  exact hnone k hk (hcall.trans hid)

omit [F64] [PeerAdmission] [Pairing] [Planner] [SourceText] in
/-- A call sends each request once, and a check has one call that sends. -/
theorem Books.nodup (h : Books s) : (s.sent.map fun x => (x.effect, x.key)).Nodup := by
  refine List.Nodup.map_on ?_ (List.Nodup.of_map _ h.once)
  intro x hx y hy heq
  simp only [Prod.mk.injEq] at heq
  obtain ⟨k, hk, hkey, hcall⟩ := h.sent x hx
  obtain ⟨k', hk', hkey', hcall'⟩ := h.sent y hy
  have hsame : k = k' :=
    List.inj_on_of_nodup_map h.commits hk hk' (hkey.trans (heq.2.trans hkey'.symm))
  subst hsame
  refine List.inj_on_of_nodup_map h.once hx hy ?_
  simp only [Prod.mk.injEq]
  exact ⟨heq.1, hcall.symm.trans hcall'⟩

theorem Inv.atMostOnce (h : Inv s) : AtMostOnce s where
  once := h.books.nodup
  sender := h.books.sent
  commits := h.books.commits
  held k hk := (h.books.held k hk).1
  inspecting c hc hf := by
    obtain ⟨hhist, -⟩ := (h.call c hc).found hf
    exact ⟨hhist, (h.call c hc).filled.historical hhist,
      fun hr => h.books.idle ((h.call c hc).retained hr), (h.call c hc).reused⟩
  inspected b hb hf := by
    obtain ⟨hhist, hrequested⟩ := (h.built b hb).found hf
    exact ⟨hhist, hrequested, fun hr => h.books.idle ((h.built b hb).retained hr),
      (h.built b hb).reused⟩
  returned b hb hs := by
    obtain ⟨p, a, f, hnames, hf, hstate⟩ := (h.built b hb).shown hs
    exact ⟨p, a, f, hnames, hf, reportState_returned hstate⟩
  confirmed b hb := (h.built b hb).confirmed

/-- Model checks run at most once, over every interleaving and any number of restarts: at any time
each request was sent at most once for a check, by the call that committed its intent; intents
stay; a call that finds something inspects it, if it is the wanted definition and the store
answers, and else refuses with the store as it is; and so is a start with another definition than
the committed one. -/
theorem model_verification_at_most_once {runtime : String} {s t : Runtime}
    (hs : Run Step (.opened runtime) s) (ht : Run Step s t) :
    AtMostOnce t ∧ Later s t ∧ (∀ d, Held s.rows d → Held t.rows d) ∧
    (∀ pre c post good ok u, t.calls = pre ++ c :: post → CallStep t pre post c c.phase ok u →
      t.finds c.request c.phase = some good →
        if good && ok then Inspects t u pre post c
        else Refuses t u pre post c c.phase.committed.isSome) ∧
    ∀ d, Held s.rows d → Refused s.next d t ∧
      ∀ pre c post ok u, t.calls = pre ++ c :: post → s.next ≤ c.id → Conflicts c.request d →
        CallStep t pre post c c.phase ok u → Refuses t u pre post c false := by
  have hinv := (Inv.opened runtime).run hs
  have hinv' := hinv.run ht
  have hlater := later_run ht
  refine ⟨hinv'.atMostOnce, hlater, fun d hd => hlater.held hd, ?_, fun d hd => ?_⟩
  · exact fun pre c post good ok u hcalls hstep hfinds => hinv'.finds hcalls hfinds hstep
  · have hrefused := hinv.refused hd ht
    refine ⟨hrefused, fun pre c post ok u hcalls hfresh hconflict hstep => ?_⟩
    obtain ⟨hphase, hhist, hrequested⟩ := hrefused.calls c (by simp [hcalls]) hfresh hconflict
    rw [hphase] at hstep
    exact refuses_of_conflict hrefused.held hconflict hhist hrequested hstep

end

/-! ## One check -/

/-- A check of a node's model. -/
def sampleDefinition : ModelVerification.Definition :=
  ⟨1, "hall", "550e8400-e29b-41d4-a716-446655440000", "550e8400-e29b-41d4-a716-446655440002",
    ⟨.ollama, "tiny"⟩⟩

/-- Another one under the same name. -/
def otherDefinition : ModelVerification.Definition := { sampleDefinition with model := ⟨.ollama, "small"⟩ }

/-- The runtime that runs it. -/
def sampleId : String := "550e8400-e29b-41d4-a716-446655440001"

/-- The owner's request for a check. -/
def sampleRequest (d : ModelVerification.Definition) : Request :=
  ⟨1, sampleId, d.nodeId, d.operationId, .start d true⟩

/-- A hash with one value. -/
@[reducible]
def sampleSha : Sha256 := .constant _ hexDigest_a

/-- The receipt of the check. -/
def sampleSource : String := "aaaaaaaa-aaaa-8aaa-aaaa-aaaaaaaaaaaa"

/-- No text is a source. -/
@[reducible]
def sampleText : SourceText := ⟨fun _ => none, fun _ => "", fun _ => .ok ()⟩

section

attribute [local instance] F64.bits PeerAdmission.never sampleSha Pairing.never samplePlanner
  sampleText

/-- The row of the check. -/
def sampleRow : IntentRow :=
  ⟨sampleSource, (Intent.toJson ⟨1, sampleDefinition, sampleId, 7⟩).size,
    some ⟨1, sampleDefinition, sampleId, 7⟩⟩

/-- The report of a start in its first phases. -/
def sampleReport (d : ModelVerification.Definition) : Report := .initial sampleId (sampleRequest d) sampleSource

/-- A start that has the slot. -/
def sampleRuntime (rows : List IntentRow) (d : ModelVerification.Definition) (next : Nat) (phase : Phase)
    (report : Report) (commits : List Commit) (sent : List Sent) : Runtime where
  rows := rows
  jobs := []
  runtime := sampleId
  owner := some next
  calls := [⟨next, sampleRequest d, report, phase, .nothing⟩]
  next := next + 1
  commits := commits
  sent := sent
  reads := []
  replies := []
  built := []

/-- The report once the intent is committed. -/
def committedReport : Report :=
  { sampleReport sampleDefinition with
    definition := some sampleDefinition
    intentRetained := true
    sourcePreparationRequested := true }

/-- What the functions of the journal make of the check. -/
theorem sample_checked :
    reserve [] sampleDefinition sampleId ⟨0, 0, 8192, 10⟩ 7 = .ok ([sampleRow], true)
    ∧ readIntent [] sampleDefinition.nodeId sampleDefinition.operationId = .ok none
    ∧ verificationPlan [] sampleDefinition.nodeId sampleDefinition.operationId = .ok none
    ∧ readIntent [sampleRow] sampleDefinition.nodeId sampleDefinition.operationId
      = .ok (some sampleDefinition)
    ∧ ∀ d ∈ [sampleDefinition, otherDefinition], (sampleRequest d).validate = .ok ()
      ∧ receiptId (sampleRequest d).nodeId (sampleRequest d).operationId "source" none
        = .ok sampleSource := by
  decide +kernel

theorem sample_start (d : ModelVerification.Definition) (hd : d ∈ [sampleDefinition, otherDefinition]) :
    (sampleRequest d).validate = .ok ()
      ∧ receiptId (sampleRequest d).nodeId (sampleRequest d).operationId "source" none
        = .ok sampleSource :=
  sample_checked.2.2.2.2 d hd

/-- The commit of the check. -/
def sampleCommit : Commit := ⟨sampleDefinition, 0⟩

/-- The preparation of the check. -/
def samplePrepare : Sent :=
  ⟨.prepare, (sampleDefinition.nodeId, sampleDefinition.operationId), 0⟩

/-- A step of the only call. -/
theorem sample_call {s t u : Runtime} {c : Call} {ok : Bool} (hcalls : s.calls = [c])
    (h : CallStep s [] [] c c.phase ok u) (hu : u = t) : Step s t := by
  subst hu
  exact @Step.call _ _ _ _ _ _ _ _ [] [] c ok hcalls h

/-- A start commits its intent and sends the preparation. -/
theorem sample_run : Run Step (.opened sampleId)
    (sampleRuntime [sampleRow] sampleDefinition 0 (.prepared sampleDefinition) committedReport
      [sampleCommit] [samplePrepare]) := by
  obtain ⟨hreserve, hunread, hunplanned, -⟩ := sample_checked
  obtain ⟨hvalid, hsource⟩ := sample_start sampleDefinition (List.mem_cons_self ..)
  have hstart : Step (.opened sampleId) (sampleRuntime [] sampleDefinition 0 .intent
      (sampleReport sampleDefinition) [] []) :=
    @Step.start _ _ _ _ _ _ _ (sampleRequest sampleDefinition) sampleSource
      ⟨hvalid, rfl⟩ hsource (by decide) rfl
  have hintent : Step (sampleRuntime [] sampleDefinition 0 .intent
      (sampleReport sampleDefinition) [] []) (sampleRuntime [] sampleDefinition 0 .source
      (sampleReport sampleDefinition) [] []) :=
    sample_call rfl (.intent (Or.inl hunread.symm)) rfl
  have hplanned : Step (sampleRuntime [] sampleDefinition 0 .source
      (sampleReport sampleDefinition) [] []) (sampleRuntime [] sampleDefinition 0
      (.reserve sampleDefinition) (sampleReport sampleDefinition) [] []) :=
    sample_call rfl (.source (Or.inl hunplanned.symm)) rfl
  have hcommit : Step (sampleRuntime [] sampleDefinition 0 (.reserve sampleDefinition)
      (sampleReport sampleDefinition) [] []) (sampleRuntime [sampleRow] sampleDefinition 0
      (.prepare sampleDefinition) committedReport [sampleCommit] []) :=
    sample_call rfl (.commit hreserve) rfl
  have hprepare : Step (sampleRuntime [sampleRow] sampleDefinition 0 (.prepare sampleDefinition)
      committedReport [sampleCommit] []) (sampleRuntime [sampleRow] sampleDefinition 0
      (.prepared sampleDefinition) committedReport [sampleCommit] [samplePrepare]) :=
    sample_call rfl .prepare rfl
  exact ((((Relation.ReflTransGen.single hstart).tail hintent).tail hplanned).tail hcommit).tail
    hprepare

/-- The call is dropped. -/
def droppedRuntime : Runtime where
  rows := [sampleRow]
  jobs := []
  runtime := sampleId
  owner := none
  calls := []
  next := 1
  commits := [sampleCommit]
  sent := [samplePrepare]
  reads := []
  replies := []
  built := []

/-- Another start, after the first call is dropped. -/
def sampleAgain (d : ModelVerification.Definition) : Runtime :=
  sampleRuntime [sampleRow] d 1 .intent (sampleReport d) [sampleCommit] [samplePrepare]

/-- The call of that start. -/
def sampleCall (d : ModelVerification.Definition) : Call :=
  ⟨1, sampleRequest d, sampleReport d, .intent, .nothing⟩

theorem sample_again (d : ModelVerification.Definition) (hd : d ∈ [sampleDefinition, otherDefinition]) :
    Run Step (.opened sampleId) (sampleAgain d) := by
  have hdrop : Step (sampleRuntime [sampleRow] sampleDefinition 0 (.prepared sampleDefinition)
      committedReport [sampleCommit] [samplePrepare]) droppedRuntime := by
    have h := @Step.drop _ _ _ _ _ _ (sampleRuntime [sampleRow] sampleDefinition 0
      (.prepared sampleDefinition) committedReport [sampleCommit] [samplePrepare]) [] [] _ rfl
    exact h
  obtain ⟨hvalid, hsource⟩ := sample_start d hd
  have hstart : Step droppedRuntime (sampleAgain d) := by
    have h := @Step.start _ _ _ _ _ _ droppedRuntime (sampleRequest d) sampleSource
      ⟨hvalid, rfl⟩ hsource (by simp [sampleRequest]) rfl
    exact h
  exact (sample_run.tail hdrop).tail hstart

/-- What another start finds is the intent of the dropped call. -/
theorem sample_found (d : ModelVerification.Definition)
    (hd : d ∈ [sampleDefinition, otherDefinition]) :
    readIntent (sampleAgain d).rows (sampleCall d).request.nodeId (sampleCall d).request.operationId =
      .ok (some sampleDefinition) := by
  have hheld := sample_checked.2.2.2.1
  rcases List.mem_cons.mp hd with rfl | hd
  · exact hheld
  · obtain rfl := List.mem_singleton.mp hd
    exact hheld

/-- After the first call is dropped, the same start only inspects, or refuses where the store fails;
a start with another definition is refused. -/
theorem model_verification_at_most_once_prepared :
    AtMostOnce (sampleAgain sampleDefinition) ∧
    (∀ ok u, CallStep (sampleAgain sampleDefinition) [] [] (sampleCall sampleDefinition) .intent ok u →
      if ok then Inspects (sampleAgain sampleDefinition) u [] [] (sampleCall sampleDefinition)
      else Refuses (sampleAgain sampleDefinition) u [] [] (sampleCall sampleDefinition) false) ∧
    ∀ ok u, CallStep (sampleAgain otherDefinition) [] [] (sampleCall otherDefinition) .intent ok u →
      Refuses (sampleAgain otherDefinition) u [] [] (sampleCall otherDefinition) false := by
  have hsame := model_verification_at_most_once .refl
    (sample_again sampleDefinition (List.mem_cons_self ..))
  have hother := model_verification_at_most_once .refl
    (sample_again otherDefinition (List.mem_cons_of_mem _ (List.mem_cons_self ..)))
  refine ⟨hsame.1, fun ok u hstep => ?_, fun ok u hstep => ?_⟩
  · have hfinds : (sampleAgain sampleDefinition).finds (sampleCall sampleDefinition).request .intent =
        some true := by
      unfold Runtime.finds
      rw [sample_found sampleDefinition (List.mem_cons_self ..)]
      decide
    exact hsame.2.2.2.1 [] (sampleCall sampleDefinition) [] true ok u rfl hstep hfinds
  · have hfinds : (sampleAgain otherDefinition).finds (sampleCall otherDefinition).request .intent =
        some false := by
      unfold Runtime.finds
      rw [sample_found otherDefinition (List.mem_cons_of_mem _ (List.mem_cons_self ..))]
      decide
    exact hother.2.2.2.1 [] (sampleCall otherDefinition) [] false ok u rfl hstep hfinds

/-- A start finds a retained intent with another definition: it does not inspect it, and the report
that it builds is not historical. -/
theorem conflicting_start_not_historical : ∃ s t c b, Run Step (.opened sampleId) s ∧
    s.calls = [] ++ c :: [] ∧ c.phase = .intent ∧
    readIntent s.rows c.request.nodeId c.request.operationId = .ok (some sampleDefinition) ∧
    CallStep s [] [] c c.phase true t ∧ t.built = [b] ∧ b.call = c.id ∧
    b.report.historical = false := by
  have hother : otherDefinition ∈ [sampleDefinition, otherDefinition] :=
    List.mem_cons_of_mem _ (List.mem_cons_self ..)
  have hfound := sample_found otherDefinition hother
  refine ⟨_, _, sampleCall otherDefinition,
    ⟨1, sampleRequest otherDefinition, (sampleReport otherDefinition).failed, .nothing⟩,
    sample_again otherDefinition hother, rfl, rfl, hfound, .intent (Or.inl hfound.symm), ?_, rfl, rfl⟩
  rfl

end

end Eef.Coordinator.Verification
