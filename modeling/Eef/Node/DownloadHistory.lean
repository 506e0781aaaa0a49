import Eef.Node.DownloadJournal

/-!
# Histories of model downloads

How the receipts of a node's journal go on, over its operations and over the restarts of the
process. `Onward` compares two histories: a receipt stays at its place and is final once it is not
under way any more. `Journal.Keeps` is the journal with its history, whatever became of the file;
the operations keep it. The last part is about what `availability` promises.
-/

namespace Eef.Node.Download

open Eef.Lib

/-- The receipts of a history stay where they are and go on; others follow. -/
def Onward (rs qs : List Receipt) : Prop :=
  ∀ (i : Nat) (r : Receipt), rs[i]? = some r → ∃ q, qs[i]? = some q ∧ r.Later q

theorem Receipt.Later.trans {a b c : Receipt} (hab : a.Later b) (hbc : b.Later c) : a.Later c := by
  rcases hab with rfl | ⟨hstate, hcancel, state, updatedAtMs, cancelRequested, rfl⟩
  · exact hbc
  · rcases hbc with rfl | ⟨-, hcancel', state', updatedAtMs', cancelRequested', rfl⟩
    · exact Or.inr ⟨hstate, hcancel, state, updatedAtMs, cancelRequested, rfl⟩
    · exact Or.inr ⟨hstate, fun h => hcancel' (hcancel h), state', updatedAtMs', cancelRequested',
        rfl⟩

theorem Onward.refl (rs : List Receipt) : Onward rs rs := fun _ _ h => ⟨_, h, Or.inl rfl⟩

theorem Onward.trans {as bs cs : List Receipt} (hab : Onward as bs) (hbc : Onward bs cs) :
    Onward as cs := by
  intro i r hr
  obtain ⟨q, hq, hrq⟩ := hab i r hr
  obtain ⟨p, hp, hqp⟩ := hbc i q hq
  exact ⟨p, hp, hrq.trans hqp⟩

theorem Onward.mem {rs qs : List Receipt} (h : Onward rs qs) {r : Receipt} (hr : r ∈ rs) :
    ∃ q ∈ qs, r.Later q := by
  obtain ⟨i, hi⟩ := List.mem_iff_getElem?.mp hr
  obtain ⟨q, hq, hlater⟩ := h i r hi
  exact ⟨q, List.mem_of_getElem? hq, hlater⟩

/-- A receipt that is not under way is still there. -/
theorem Onward.final {rs qs : List Receipt} (h : Onward rs qs) {r : Receipt} (hr : r ∈ rs)
    (hstate : r.state ≠ .downloading) : r ∈ qs := by
  obtain ⟨q, hq, hlater⟩ := h.mem hr
  exact hlater.final hstate ▸ hq

theorem Onward.append (rs qs : List Receipt) : Onward rs (rs ++ qs) :=
  fun _ _ h => ⟨_, List.getElem?_append_left (List.getElem?_eq_some_iff.mp h).1 ▸ h, Or.inl rfl⟩

theorem Onward.map {rs : List Receipt} {f : Receipt → Receipt} (h : ∀ r ∈ rs, r.Later (f r)) :
    Onward rs (rs.map f) := by
  intro i r hr
  refine ⟨f r, ?_, h r (List.mem_of_getElem? hr)⟩
  rw [List.getElem?_map, hr]
  rfl

theorem Onward.replace {rs : List Receipt} (h : Valid rs) {r r' : Receipt} (hr : r ∈ rs)
    (hlater : r.Later r') : Onward rs (replace r' rs) := by
  refine Onward.map fun q hq => ?_
  by_cases hid : q.id = r'.id
  · rw [if_pos hid, h.eq hq hr (hid.trans hlater.id)]
    exact hlater
  · rw [if_neg hid]
    exact Or.inl rfl

section

variable [F64] [Sha256]

/-- A history behind the file, if there is one. -/
def FileHolds (file : Option Db) (rs : List Receipt) : Prop :=
  match file with
  | none => rs = []
  | some db => Holds db rs

theorem FileHolds.valid {file : Option Db} {rs : List Receipt} (h : FileHolds file rs) :
    Valid rs := by
  cases file with
  | none =>
    have hnil : rs = [] := h
    exact hnil ▸ Valid.nil
  | some db => exact Holds.valid h

/-- A journal with a history. -/
structure Journal.Keeps (j : Journal) (rs : List Receipt) : Prop where
  file : FileHolds j.file rs
  ready : j.handle = .ready → ∃ db, j.file = some db
  empty : j.handle = .empty → rs = []

/-- What `open` leaves behind, whatever comes in the way. -/
theorem openStore_holds {file file' : Option Db} {rs : List Receipt} (h : FileHolds file rs)
    {opening : Opening} {now : Nat} {result : Result Unit}
    (hopen : openStore file opening now = (file', result)) :
    (FileHolds file' rs ∨ FileHolds file' (rs.map (Receipt.interrupted · now))) ∧
      (result = .ok () → ∃ db, file' = some db ∧
        Holds db (rs.map (Receipt.interrupted · now))) := by
  have hdb : Holds (file.getD ⟨[], opening.pageCount, opening.pageSize⟩) rs := by
    cases file with
    | none =>
      have hnil : rs = [] := h
      rw [hnil]
      exact ⟨rfl, Valid.nil⟩
    | some db => exact h
  simp only [openStore] at hopen
  cases hchecks : opening.checks with
  | error msg =>
    simp only [hchecks] at hopen
    cases hopen
    exact ⟨Or.inl h, nofun⟩
  | ok u =>
    simp only [hchecks, hdb.records, ok_bind] at hopen
    cases hinterrupt : (file.getD ⟨[], opening.pageCount, opening.pageSize⟩).interrupt now rs with
    | error msg =>
      simp only [hinterrupt] at hopen
      cases hopen
      exact ⟨Or.inl hdb, nofun⟩
    | ok new =>
      have hnew := ((@Holds.interrupt _ _ now rs _ [] hdb).1 new hinterrupt).1
      simp only [hinterrupt] at hopen
      cases hwrite : opening.write with
      | done pageCount =>
        simp only [hwrite, Db.commit] at hopen
        cases hopen
        exact ⟨Or.inr ⟨hnew.rows, hnew.valid⟩, fun _ => ⟨_, rfl, hnew.rows, hnew.valid⟩⟩
      | failed msg applied =>
        simp only [hwrite, Db.commit] at hopen
        cases hopen
        refine ⟨?_, nofun⟩
        cases applied with
        | false => exact Or.inl hdb
        | true => exact Or.inr hnew

omit [F64] [Sha256] in
/-- What a checked write leaves. -/
theorem Db.run_cases {db db' : Db} {checked : Result Db} {write : Db → Write} {result : Result Unit}
    (h : db.run checked write = (db', result)) :
    (db' = db ∧ result ≠ .ok ()) ∨ ∃ new, checked = .ok new ∧ db'.rows = new.rows := by
  cases checked with
  | error msg =>
    cases h
    exact Or.inl ⟨rfl, nofun⟩
  | ok new =>
    simp only [Db.run] at h
    cases hwrite : write new with
    | done pageCount =>
      simp only [hwrite, Db.commit] at h
      cases h
      exact Or.inr ⟨new, rfl, rfl⟩
    | failed msg applied =>
      simp only [hwrite, Db.commit] at h
      cases h
      cases applied with
      | false => exact Or.inl ⟨rfl, nofun⟩
      | true => exact Or.inr ⟨new, rfl, rfl⟩

omit [F64] [Sha256] in
theorem Journal.on_ready {j : Journal} {f : Db → Db × Result Unit} {db : Db}
    (hhandle : j.handle = .ready) (hfile : j.file = some db) :
    j.on f = (⟨.ready, some (f db).1⟩, (f db).2) := by
  unfold Journal.on
  rw [hhandle, hfile]

omit [F64] [Sha256] in
theorem Journal.on_other {j : Journal} {f : Db → Db × Result Unit} (hhandle : j.handle ≠ .ready) :
    j.on f = (j, .error "Model download receipt journal unavailable") := by
  unfold Journal.on
  cases hj : j.handle with
  | ready => exact absurd hj hhandle
  | empty => rfl
  | unavailable => rfl

/-- A change of a receipt leaves the journal as it is, or replaces a receipt that was under way. -/
theorem Journal.Keeps.change {j j' : Journal} {rs : List Receipt} (h : j.Keeps rs) {id : String}
    {state : Option State} {now : Nat} {write : Db → Write} {result : Result Unit}
    (hon : j.on (fun db => db.run (db.changed id state now) write) = (j', result)) :
    (j' = j ∧ result ≠ .ok ()) ∨ ∃ r ∈ rs, r.id = id ∧ r.state = .downloading ∧
      j'.Keeps (replace (r.changed state now) rs) := by
  by_cases hhandle : j.handle = .ready
  · obtain ⟨db, hfile⟩ := h.ready hhandle
    have hdb : Holds db rs := by
      have := h.file
      rw [hfile] at this
      exact this
    rw [Journal.on_ready hhandle hfile] at hon
    obtain ⟨db', result', hrun⟩ : ∃ db' result', db.run (db.changed id state now) write =
        (db', result') := ⟨_, _, rfl⟩
    rw [hrun] at hon
    cases hon
    rcases Db.run_cases hrun with ⟨rfl, hresult⟩ | ⟨new, hnew, hrows⟩
    · refine Or.inl ⟨?_, hresult⟩
      rw [← hfile, ← hhandle]
    · obtain ⟨r, hr, hid, hstate, hholds⟩ := hdb.changed hnew
      exact Or.inr ⟨r, hr, hid, hstate, ⟨hrows.trans hholds.rows, hholds.valid⟩,
        fun _ => ⟨_, rfl⟩, nofun⟩
  · rw [Journal.on_other hhandle] at hon
    cases hon
    exact Or.inl ⟨rfl, nofun⟩

/-- A claim on an open file leaves the history, or adds a receipt that it did not have. -/
theorem Holds.claim {db db' : Db} {rs : List Receipt} (h : Holds db rs) {policy : Policy}
    {p : Progress} {now : Nat} {write : Db → Write} {result : Result Unit}
    (hrun : db.run (db.claimed policy p now) write = (db', result)) :
    (db' = db ∧ result ≠ .ok ()) ∨
      Holds db' (rs ++ [admitted p rs.length now]) ∧ ∀ r ∈ rs, r.id ≠ p.id := by
  rcases Db.run_cases hrun with hsame | ⟨new, hnew, hrows⟩
  · exact Or.inl hsame
  · obtain ⟨hholds, hfresh, -⟩ := h.claimed hnew
    exact Or.inr ⟨⟨hrows.trans hholds.rows, hholds.valid⟩, hfresh⟩

/-- A journal that is not there yet is opened without receipts. -/
theorem Journal.Keeps.opened {j j' : Journal} {rs : List Receipt} (h : j.Keeps rs)
    {opening : Opening} {now : Nat} {result : Result Unit}
    (hopened : j.opened opening now = (j', result)) :
    j'.Keeps rs ∧ (result = .ok () → j'.handle = .ready) := by
  unfold Journal.opened at hopened
  cases hhandle : j.handle with
  | ready =>
    rw [hhandle] at hopened
    cases hopened
    exact ⟨h, fun _ => hhandle⟩
  | unavailable =>
    rw [hhandle] at hopened
    cases hopened
    exact ⟨h, nofun⟩
  | empty =>
    rw [hhandle] at hopened
    have hnil := h.empty hhandle
    subst hnil
    obtain ⟨file, found, hopen⟩ : ∃ file found, openStore j.file opening now = (file, found) :=
      ⟨_, _, rfl⟩
    obtain ⟨hfile, hok⟩ := openStore_holds h.file hopen
    rw [List.map_nil, or_self] at hfile
    rw [hopen] at hopened
    cases found with
    | error msg =>
      cases hopened
      exact ⟨⟨hfile, nofun, fun _ => rfl⟩, nofun⟩
    | ok u =>
      cases hopened
      obtain ⟨db, hdb, -⟩ := hok rfl
      exact ⟨⟨hfile, fun _ => ⟨db, hdb⟩, nofun⟩, fun _ => rfl⟩

/-- An installation that is refused leaves the history, unless its receipt was written after all;
one that is admitted has a download ID that the history does not have. -/
theorem Journal.Keeps.begin {j j' : Journal} {rs : List Receipt} (h : j.Keeps rs) {config : Json}
    {p : Progress} {opening : Opening} {now : Nat} {write : Db → Write} {result : Result Unit}
    (hbegin : j.begin config p opening now write = (j', result)) :
    (j'.Keeps rs ∧ result ≠ .ok ()) ∨
      j'.Keeps (rs ++ [admitted p rs.length now]) ∧ ∀ r ∈ rs, r.id ≠ p.id := by
  unfold Journal.begin at hbegin
  cases hpolicy : Policy.fromConfig config with
  | error msg =>
    rw [hpolicy] at hbegin
    cases hbegin
    exact Or.inl ⟨h, nofun⟩
  | ok policy =>
    obtain ⟨j₁, opened, hopened⟩ : ∃ j₁ opened, j.opened opening now = (j₁, opened) := ⟨_, _, rfl⟩
    obtain ⟨hkeeps, hready⟩ := h.opened hopened
    simp only [hpolicy, hopened] at hbegin
    cases opened with
    | error msg =>
      cases hbegin
      exact Or.inl ⟨hkeeps, nofun⟩
    | ok u =>
      have hhandle := hready rfl
      obtain ⟨db, hfile⟩ := hkeeps.ready hhandle
      have hdb : Holds db rs := by
        have := hkeeps.file
        rw [hfile] at this
        exact this
      obtain ⟨db', result', hrun⟩ : ∃ db' result', db.run (db.claimed policy p now) write =
          (db', result') := ⟨_, _, rfl⟩
      have hon : j₁.on (fun db => db.run (db.claimed policy p now) write) = (j', result) := hbegin
      rw [Journal.on_ready hhandle hfile, hrun] at hon
      cases hon
      rcases hdb.claim hrun with ⟨rfl, hresult⟩ | ⟨hnew, hfresh⟩
      · exact Or.inl ⟨⟨hdb, fun _ => ⟨_, rfl⟩, nofun⟩, hresult⟩
      · exact Or.inr ⟨⟨hnew, fun _ => ⟨_, rfl⟩, nofun⟩, hfresh⟩

/-- What a process finds when it starts, or opens the journal again. -/
theorem recover_keeps {file : Option Db} {rs : List Receipt} (h : FileHolds file rs)
    {opening : Opening} {now : Nat} {latest : Result Unit} {journal : Journal}
    {found : Result (Option Receipt)}
    (hrecover : recover file opening now latest = (journal, found)) :
    ∃ qs, journal.Keeps qs ∧ (qs = rs ∨ qs = rs.map (Receipt.interrupted · now)) ∧
      ∀ r, found = .ok (some r) → r ∈ qs ∧ r.state ≠ .downloading := by
  cases file with
  | none =>
    have hnil : rs = [] := h
    subst hnil
    cases hrecover
    exact ⟨[], ⟨rfl, nofun, fun _ => rfl⟩, Or.inl rfl, nofun⟩
  | some db =>
    obtain ⟨file', result, hopen⟩ : ∃ file' result, openStore (some db) opening now =
        (file', result) := ⟨_, _, rfl⟩
    obtain ⟨hfile, hok⟩ := openStore_holds h hopen
    -- a journal that could not be opened, with either history
    have hunavailable : ∀ msg, (journal, found) = (⟨.unavailable, file'⟩, .error msg) →
        ∃ qs, journal.Keeps qs ∧ (qs = rs ∨ qs = rs.map (Receipt.interrupted · now)) ∧
          ∀ r, found = .ok (some r) → r ∈ qs ∧ r.state ≠ .downloading := by
      intro msg heq
      cases heq
      rcases hfile with hfile | hfile
      · exact ⟨rs, ⟨hfile, nofun, nofun⟩, Or.inl rfl, nofun⟩
      · exact ⟨_, ⟨hfile, nofun, nofun⟩, Or.inr rfl, nofun⟩
    unfold recover at hrecover
    simp only [hopen] at hrecover
    cases result with
    | error msg => exact hunavailable msg hrecover.symm
    | ok u =>
      obtain ⟨db', rfl, hdb'⟩ := hok rfl
      cases latest with
      | error msg => exact hunavailable msg hrecover.symm
      | ok u =>
        simp only [ok_bind, Option.getD_some, hdb'.records] at hrecover
        cases hrecover
        refine ⟨_, ⟨hdb', fun _ => ⟨db', rfl⟩, nofun⟩, Or.inr rfl, fun r hr => ?_⟩
        simp only [Except.ok.injEq] at hr
        have hmem := List.mem_of_getLast? hr
        obtain ⟨q, -, rfl⟩ := List.mem_map.mp hmem
        exact ⟨hmem, q.interrupted_state now⟩

/-! ## What `availability` promises -/

/-- SQLite does what an admission asks of it: the file opens, a journal that is laid out anew stays
below the least limit, and a write that the policy has room for takes place. -/
structure Serves (j : Journal) (policy : Policy) (opening : Opening) (write : Db → Write) : Prop where
  checks : opening.checks = .ok ()
  created : j.handle = .empty → ∃ pageCount, opening.write = .done pageCount ∧
    (pageCount + 4) * (j.file.map Db.pageSize).getD opening.pageSize ≤ 64 * 1024
  writes : ∀ db : Db, (db.pageCount + 4) * db.pageSize ≤ policy.maxBytes →
    ∃ pageCount, write db = .done pageCount

omit [F64] [Sha256] in
/-- The limits that every policy stays within. -/
theorem Policy.fromConfig_ok {config : Json} {policy : Policy}
    (h : Policy.fromConfig config = .ok policy) : (1 ≤ policy.maxRecords ∧ policy.maxRecords ≤ 4096) ∧
      64 * 1024 ≤ policy.maxBytes := by
  unfold Policy.fromConfig at h
  cases hj : config.pointer "/models/download_receipts" with
  | none =>
    simp only [hj, bind_ok, bailIf_ok, pure_ok, not_or, not_not] at h
    obtain ⟨_, -, _, ⟨hrecords, hbytes⟩, rfl⟩ := h
    exact ⟨hrecords, hbytes.1⟩
  | some j =>
    simp only [hj, bind_ok, bailIf_ok, pure_ok, not_or, not_not] at h
    obtain ⟨_, -, _, ⟨hrecords, hbytes⟩, rfl⟩ := h
    exact ⟨hrecords, hbytes.1⟩

/-- The admission of a new download, where there is room and nothing is under way. -/
theorem Holds.claim_ok {db : Db} {rs : List Receipt} (h : Holds db rs) {policy : Policy}
    {p : Progress} {now : Nat} (hpolicy : policy.maxRecords ≤ 4096)
    (hp : (admitted p 0 now).validate = .ok ()) (hfresh : ∀ r ∈ rs, r.id ≠ p.id)
    (hidle : ∀ r ∈ rs, r.state ≠ .downloading) (hroom : ¬db.full policy rs.length) :
    ∃ new, db.claimed policy p now = .ok new ∧ new.pageCount = db.pageCount ∧
      new.pageSize = db.pageSize := by
  have hcount : ¬policy.maxRecords ≤ rs.length := fun hle => hroom (Or.inl hle)
  have hchecked : (admitted p rs.length now).validate = .ok () := by
    obtain ⟨hid, hmodel, hdamaged⟩ := Receipt.validate_ok.1 hp
    rw [Receipt.validate_ok]
    refine ⟨hid, hmodel, ?_⟩
    simp only [Receipt.damaged, not_or] at hdamaged ⊢
    obtain ⟨h1, -, h3, h4, h5, h6, h7, h8, h9, h10, h11, h12⟩ := hdamaged
    refine ⟨h1, ?_, h3, h4, h5, h6, h7, h8, h9, h10, h11, h12⟩
    show ¬¬(1 ≤ rs.length + 1 ∧ rs.length + 1 ≤ 4096)
    omega
  simp only [Db.claimed, h.records, ok_bind, bind_ok, bailIf_ok, Db.insert, pure_ok, not_exists,
    not_and, not_or, not_lt]
  refine ⟨_, ⟨(), hfresh, (), hidle, (), hroom, (), hchecked, (),
    Receipt.size_le hchecked, (), ?_, rfl⟩, rfl, rfl⟩
  intro row hrow
  rw [h.rows] at hrow
  obtain ⟨r, hr, rfl⟩ := List.mem_map.mp hrow
  refine ⟨hfresh r hr, fun hsequence => ?_⟩
  -- the ordinals end before the one that is added
  have hmem : r.sequence ∈ List.range' 1 rs.length := h.valid.ordinals ▸ List.mem_map_of_mem hr
  have heq : r.sequence = rs.length + 1 := hsequence
  rw [List.mem_range'_1] at hmem
  omega

/-- A journal that reports no blocker admits a new download. -/
theorem available_admits {j : Journal} {rs : List Receipt} (h : j.Keeps rs)
    (hhandle : j.handle ≠ .unavailable) {config : Json} {a : Availability}
    (hreport : j.availability config = .ok a) (hfree : a.blocker = none) {p : Progress}
    {opening : Opening} {now : Nat} {write : Db → Write} (hserves : Serves j a.limits opening write)
    (hp : (admitted p 0 now).validate = .ok ()) (hfresh : ∀ r ∈ rs, r.id ≠ p.id) :
    (j.begin config p opening now write).2 = .ok () := by
  unfold Journal.availability at hreport
  rw [bind_ok] at hreport
  obtain ⟨policy, hpolicy, hreport⟩ := hreport
  obtain ⟨hrecords, hbytes⟩ := Policy.fromConfig_ok hpolicy
  -- the claim, on a file that is open and has room
  have hclaim : ∀ {db : Db}, Holds db rs → (∀ r ∈ rs, r.state ≠ .downloading) →
      ¬db.full policy rs.length → a.limits = policy →
      (db.run (db.claimed policy p now) write).2 = .ok () := by
    intro db hdb hidle hroom hlimits
    obtain ⟨new, hnew, hcount, hsize⟩ := hdb.claim_ok hrecords.2 hp hfresh hidle hroom
    have hfits : (new.pageCount + 4) * new.pageSize ≤ a.limits.maxBytes := by
      simp only [Db.full, not_or, not_lt] at hroom
      rw [hcount, hsize, hlimits]
      exact hroom.2
    obtain ⟨pageCount, hwrite⟩ := hserves.writes new hfits
    rw [hnew, Db.run, hwrite]
    rfl
  unfold Journal.begin
  rw [hpolicy]
  cases hj : j.handle with
  | unavailable => exact absurd hj hhandle
  | ready =>
    obtain ⟨db, hfile⟩ := h.ready hj
    have hdb : Holds db rs := by
      have := h.file
      rw [hfile] at this
      exact this
    simp only [hj, hfile, hdb.records, ok_bind, pure_ok] at hreport
    subst hreport
    have hopened : j.opened opening now = (j, .ok ()) := by
      unfold Journal.opened
      rw [hj]
    simp only [hopened, Journal.on_ready hj hfile]
    by_cases hactive : ∃ r ∈ rs, r.state = .downloading
    · rw [if_pos hactive] at hfree
      cases hfree
    · rw [if_neg hactive] at hfree
      by_cases hfull : db.full policy rs.length
      · rw [if_pos hfull] at hfree
        cases hfree
      · exact hclaim hdb (fun r hr hs => hactive ⟨r, hr, hs⟩) hfull rfl
  | empty =>
    simp only [hj, pure_ok] at hreport
    subst hreport
    have hnil := h.empty hj
    subst hnil
    obtain ⟨pageCount, hwrite, hsmall⟩ := hserves.created hj
    have hdb : Holds (j.file.getD ⟨[], opening.pageCount, opening.pageSize⟩) [] := by
      cases hfile : j.file with
      | none => exact ⟨rfl, Valid.nil⟩
      | some db =>
        have := h.file
        rw [hfile] at this
        exact this
    have hsize : (j.file.getD ⟨[], opening.pageCount, opening.pageSize⟩).pageSize =
        (j.file.map Db.pageSize).getD opening.pageSize := by
      cases j.file <;> rfl
    have hopened : j.opened opening now =
        (⟨.ready, some { j.file.getD ⟨[], opening.pageCount, opening.pageSize⟩ with pageCount }⟩,
          .ok ()) := by
      simp only [Journal.opened, hj, openStore, hserves.checks, hdb.records, ok_bind, Db.interrupt,
        hwrite, Db.commit]
    simp only [hopened, Journal.on]
    refine hclaim ⟨hdb.rows, Valid.nil⟩ (fun r hr => absurd hr List.not_mem_nil) ?_ rfl
    simp only [Db.full, not_or, not_le, not_lt]
    refine ⟨hrecords.1, ?_⟩
    show (pageCount + 4) * (j.file.getD ⟨[], opening.pageCount, opening.pageSize⟩).pageSize ≤ _
    rw [hsize]
    omega

/-- A journal that reports a blocker refuses every download, and stays as it is. -/
theorem blocked_refuses {j : Journal} {rs : List Receipt} (h : j.Keeps rs) {config : Json}
    {a : Availability} (hreport : j.availability config = .ok a) (hblocked : a.blocker ≠ none)
    (p : Progress) (opening : Opening) (now : Nat) (write : Db → Write) :
    ∃ msg, j.begin config p opening now write = (j, .error msg) := by
  unfold Journal.availability at hreport
  rw [bind_ok] at hreport
  obtain ⟨policy, hpolicy, hreport⟩ := hreport
  unfold Journal.begin
  rw [hpolicy]
  cases hj : j.handle with
  | empty =>
    simp only [hj, pure_ok] at hreport
    subst hreport
    exact absurd rfl hblocked
  | unavailable =>
    refine ⟨"Model download receipt journal unavailable; no transfer admitted", ?_⟩
    simp only [Journal.opened, hj]
  | ready =>
    obtain ⟨db, hfile⟩ := h.ready hj
    have hdb : Holds db rs := by
      have := h.file
      rw [hfile] at this
      exact this
    simp only [hj, hfile, hdb.records, ok_bind, pure_ok] at hreport
    subst hreport
    have hopened : j.opened opening now = (j, .ok ()) := by
      unfold Journal.opened
      rw [hj]
    -- one of the checks of `claim` comes in the way
    have hrefused : ∃ msg, db.claimed policy p now = .error msg := by
      cases hclaimed : db.claimed policy p now with
      | error msg => exact ⟨msg, rfl⟩
      | ok new =>
        simp only [Db.claimed, hdb.records, ok_bind, bind_ok, bailIf_ok] at hclaimed
        obtain ⟨_, -, _, hidle, _, hroom, -⟩ := hclaimed
        rw [if_neg hidle, if_neg hroom] at hblocked
        exact absurd rfl hblocked
    obtain ⟨msg, hmsg⟩ := hrefused
    refine ⟨msg, ?_⟩
    simp only [hopened, Journal.on_ready hj hfile, hmsg, Db.run]
    rw [← hj, ← hfile]

end

end Eef.Node.Download
