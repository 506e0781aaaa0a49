import Eef.Node.Versions

/-!
# What an installation selects

`install_manifest` of `updater.rs`: a manifest is installed when its version is not there yet and
is newer than the selected one, and then the selector names it. What the machine answers (its
files, the download, the archive, the authorization) is arbitrary, call by call. A call that
succeeds selects the version of its manifest, one that the source reads as newer than the selected
one (`Call.run_ok`), so along any run the selections only grow.
-/

namespace Eef.Node.Updater

open Eef.Lib
open RepairReceipts (isVersion validateVersion)
open Http (trim eqIgnoreAsciiCase)

/-- `MAX_UPDATE_BYTES`. -/
def maxUpdateBytes : Nat := 512 * 1024 * 1024

/-- `UpdateManifest`. -/
structure Manifest where
  version : String
  url : String
  sha256 : String
  sizeBytes : Option Nat

/-- The selectors of an installation, as a reader finds them. -/
structure Install where
  current : Result (Option String)
  previous : Result (Option String)

/-- What a call is answered by the machine it runs on. -/
structure Machine where
  /-- The directory of the installation, and the lock of its updates. -/
  locked : Result Unit
  /-- Whether a bundle of the version is selected. -/
  bundle : String → Result Bool
  /-- `VERSION`, the version of the running program. -/
  version : String
  /-- Whether `pending_executable` finds one, for a version and a program. -/
  pending : String → String → Result Bool
  /-- The directory of the versions. -/
  versions : Result Unit
  /-- Whether the directory of the version exists. -/
  present : String → Bool
  /-- `fetch_with_policy`, of the address, the limit and the policy. -/
  fetch : String → Nat → Bool → Result (List UInt8)
  /-- The digest of a download, in hexadecimal digits. -/
  digest : List UInt8 → String
  /-- `extract_zip` into the staging directory. -/
  unpack : List UInt8 → Result Unit
  /-- Whether the staging directory holds the program. -/
  contains : String → Bool
  /-- The name and the version in the metadata of the bundle. -/
  metadata : Result (Option String × Option String)
  authorize : Result Unit
  rename : Result Unit
  writePrevious : Result Unit
  writeCurrent : Result Unit

/-- `UpdateApplied`. -/
structure UpdateApplied where
  newVersion : String
  previousVersion : Option String
  restart : Bool

/-- `validate_program`. -/
def validateProgram (program : String) : Result Unit :=
  bailIf (program = "" ∨ ¬program.toList.all fun c => c.isAlphanum || c == '-' || c == '_')
    "unsafe program name"

/-- `read_version_selector`. -/
def readVersionSelector (file : Result (Option String)) : Result (Option String) := do
  match ← file with
  | none => return none
  | some text =>
    bailIf (1024 < text.utf8ByteSize) "installed version selector is too large"
    if trim text = "" then return none
    else
      validateVersion (trim text)
      return some (trim text)

/-- `bundle_selection::read`, as far as there is a selection. -/
def readBundle (m : Machine) (version : String) : Result Bool := do
  validateVersion version
  m.bundle version

/-- A call of `install_manifest`. -/
structure Call where
  machine : Machine
  manifest : Manifest
  program : String
  currentVersion : Option String
  httpsOnly : Bool

/-- No repair waits for a restart. -/
def Call.checkRepair (c : Call) (version : String) : Result Unit := do
  if ← readBundle c.machine version then
    let pending ← c.machine.pending (c.currentVersion.getD c.machine.version) c.program
    bailIf pending "an installed repair is pending; restart and inspect before updating again"

/-- The metadata of the bundle names what was asked for. -/
def Call.checkMetadata (c : Call) : Result Unit := do
  let (name, version) ← c.machine.metadata
  bailIf (name ≠ some c.program ∨ version ≠ some c.manifest.version)
    "update bundle product/version does not match the explicit selection"

/-- Whether the version of the manifest is there already. -/
def Call.installed (c : Call) : Result Bool :=
  if c.machine.present c.manifest.version then .ok true
  else readBundle c.machine c.manifest.version

/-- `install_manifest` up to the first write of a selector: what was selected before. -/
def Call.stage (c : Call) (s : Install) : Result (Option String) := do
  validateProgram c.program
  c.machine.locked
  let selected ← readVersionSelector s.current
  selected.elim (.ok ()) c.checkRepair
  bailIf (c.currentVersion.any fun current => selected.any (· ≠ current))
    "an installed update is pending; restart and inspect before updating again"
  c.machine.versions
  let installed ← c.installed
  bailIf installed "this update version is already present; existing installed files were preserved"
  bailIf (selected.any fun selected => !isNewer c.manifest.version selected)
    "update cannot replace an equal or newer installed selection"
  let bytes ← c.machine.fetch c.manifest.url (c.manifest.sizeBytes.getD maxUpdateBytes) c.httpsOnly
  bailIf (c.manifest.sizeBytes.any (· ≠ bytes.length))
    "Update download did not match its declared size"
  ensure (eqIgnoreAsciiCase (c.machine.digest bytes) c.manifest.sha256)
    "dist zip sha256 mismatch; refusing update"
  c.machine.unpack bytes
  ensure (c.machine.contains c.program)
    ("update archive does not contain the " ++ c.program ++ " executable")
  c.currentVersion.elim (.ok ()) fun _ => c.checkMetadata
  c.machine.authorize
  c.machine.rename
  return selected

/-- `install_manifest`. -/
def Call.run (c : Call) (s : Install) : Install × Result UpdateApplied :=
  match c.stage s with
  | .error e => (s, .error e)
  | .ok selected =>
    match c.machine.writePrevious with
    | .error e => (s, .error e)
    | .ok _ =>
      match c.machine.writeCurrent with
      | .error e => ({ s with previous := .ok (some (selected.getD "")) }, .error e)
      | .ok _ =>
        ({ previous := .ok (some (selected.getD "")),
           current := .ok (some (c.manifest.version ++ "\n")) },
          .ok ⟨c.manifest.version, selected, true⟩)

/-- The versions that the calls which succeed select, in their order. -/
def selections : Install → List Call → List String
  | _, [] => []
  | s, c :: calls =>
    match c.run s with
    | (s, .ok applied) => applied.newVersion :: selections s calls
    | (s, .error _) => selections s calls

/-! ## What is written is read back -/

theorem not_whitespace {c : Char} (h : isIdentifierChar c = true) : isWhitespace c = false := by
  have hplain := isPlain_of_identifierChar h
  have hspace : c ≠ ' ' := by
    intro heq
    rw [heq] at h
    exact absurd h (by decide)
  have h32 : c.toNat ≠ 32 := fun heq => hspace (Char.toNat_inj.mp heq)
  simp only [Json.isPlain, Bool.and_eq_true, decide_eq_true_eq] at hplain
  refine Bool.eq_false_iff.mpr fun hw => ?_
  simp only [isWhitespace, Bool.or_eq_true, Bool.and_eq_true, decide_eq_true_eq, beq_iff_eq] at hw
  omega

theorem dropWhile_identifier {cs : List Char} (h : ∀ c ∈ cs, isIdentifierChar c = true) :
    cs.dropWhile isWhitespace = cs := by
  cases cs with
  | nil => rfl
  | cons c cs =>
    rw [List.dropWhile_cons, not_whitespace (h c List.mem_cons_self)]
    rfl

theorem trim_line {version : String} (h : ∀ c ∈ version.toList, isIdentifierChar c = true)
    (hne : version.toList ≠ []) : trim (version ++ "\n") = version := by
  have hlist : (version ++ "\n").toList = version.toList ++ ['\n'] := String.toList_append
  have hfront : (version.toList ++ ['\n']).dropWhile isWhitespace = version.toList ++ ['\n'] := by
    cases hv : version.toList with
    | nil => exact absurd hv hne
    | cons c cs =>
      rw [List.cons_append, List.dropWhile_cons,
        not_whitespace (h c (by rw [hv]; exact List.mem_cons_self))]
      rfl
  have hnewline : isWhitespace '\n' = true := by decide
  unfold trim
  rw [hlist, hfront, List.reverse_append, List.reverse_singleton, List.singleton_append,
    List.dropWhile_cons, if_pos hnewline,
    dropWhile_identifier fun c hc => h c (List.mem_reverse.mp hc), List.reverse_reverse,
    String.ofList_toList]

/-- A selector that names a version is read as that version. -/
theorem readVersionSelector_line {version : String} (h : isVersion version = true) :
    readVersionSelector (.ok (some (version ++ "\n"))) = .ok (some version) := by
  obtain ⟨core, pre, hp⟩ := exists_parts version
  obtain ⟨hlen, -, -, hchars⟩ := hp.isVersion_iff.mp h
  rw [← hp.text] at hchars
  have hne : version.toList ≠ [] := by
    intro hnil
    rw [hp.text] at hnil
    rw [(List.append_eq_nil_iff.mp hnil).1] at hlen
    exact absurd hlen (by decide)
  have hbytes : version.utf8ByteSize ≤ 100 := by
    unfold isVersion at h
    simp only [Bool.and_eq_true, decide_eq_true_eq] at h
    exact h.1.2
  have hsize : ¬1024 < (version ++ "\n").utf8ByteSize := by
    rw [String.utf8ByteSize_append]
    have hnewline : "\n".utf8ByteSize = 1 := by decide
    omega
  have hempty : version ≠ "" := by
    intro heq
    rw [heq] at hne
    exact hne rfl
  unfold readVersionSelector validateVersion ensure bailIf
  simp only [ok_bind, trim_line hchars hne, if_neg hsize, if_neg hempty, if_pos h]
  rfl

/-- A selected version is an accepted one. -/
theorem readVersionSelector_valid {file : Result (Option String)} {version : String}
    (h : readVersionSelector file = .ok (some version)) : isVersion version = true := by
  unfold readVersionSelector at h
  obtain ⟨text, -, h⟩ := bind_ok.mp h
  cases text with
  | none => cases h
  | some text =>
    obtain ⟨_, -, h⟩ := bind_ok.mp h
    by_cases hempty : trim text = ""
    · rw [if_pos hempty] at h
      cases h
    · rw [if_neg hempty] at h
      obtain ⟨_, hvalid, h⟩ := bind_ok.mp h
      cases h
      exact ensure_ok.mp hvalid

/-! ## One call -/

/-- What is staged is an accepted version, newer than the selected one. -/
theorem Call.stage_ok {c : Call} {s : Install} {selected : Option String}
    (h : c.stage s = .ok selected) :
    readVersionSelector s.current = .ok selected ∧ isVersion c.manifest.version = true ∧
      ∀ current ∈ selected, isNewer c.manifest.version current = true := by
  simp only [Call.stage, bind_ok, bailIf_ok, ensure_ok, pure_ok] at h
  obtain ⟨_, -, _, -, read, hread, _, -, _, -, _, -, bundle, hbundle, _, habsent, _, hnewer, _, -,
    _, -, _, -, _, -, _, -, _, -, _, -, _, -, rfl⟩ := h
  refine ⟨hread, ?_, ?_⟩
  · unfold Call.installed at hbundle
    by_cases hpresent : c.machine.present c.manifest.version = true
    · rw [if_pos hpresent] at hbundle
      cases hbundle
      exact absurd rfl habsent
    · rw [if_neg hpresent] at hbundle
      obtain ⟨_, hvalid, -⟩ := bind_ok.mp hbundle
      exact ensure_ok.mp hvalid
  · intro current hcurrent
    rw [hcurrent] at hnewer
    simpa using hnewer

/-- A call that fails selects nothing; one that succeeds selects its version, which is newer than
the selected one. -/
theorem Call.run_cases (c : Call) (s : Install) :
    (∃ e, (c.run s).2 = .error e ∧ (c.run s).1.current = s.current) ∨
    ∃ selected applied, (c.run s).2 = .ok applied ∧ applied.newVersion = c.manifest.version ∧
      readVersionSelector (c.run s).1.current = .ok (some c.manifest.version) ∧
      readVersionSelector s.current = .ok selected ∧ isVersion c.manifest.version = true ∧
      ∀ current ∈ selected, rank current < rank c.manifest.version := by
  unfold Call.run
  cases hstage : c.stage s with
  | error e => exact Or.inl ⟨e, rfl, rfl⟩
  | ok selected =>
    cases c.machine.writePrevious with
    | error e => exact Or.inl ⟨e, rfl, rfl⟩
    | ok _ =>
      cases c.machine.writeCurrent with
      | error e => exact Or.inl ⟨e, rfl, rfl⟩
      | ok _ =>
        obtain ⟨hread, hvalid, hnewer⟩ := Call.stage_ok hstage
        refine Or.inr ⟨selected, _, rfl, rfl, readVersionSelector_line hvalid, hread, hvalid, ?_⟩
        intro current hcurrent
        have hcurrentValid : isVersion current = true :=
          readVersionSelector_valid (hread.trans (congrArg _ hcurrent))
        exact (isNewer_iff hvalid hcurrentValid).mp (hnewer current hcurrent)

/-! ## A run of calls -/

/-- Each selection is read as a newer version than the ones before it, and is the version of a
manifest of the run. -/
theorem selections_increase (s : Install) (calls : List Call) :
    (selections s calls).Pairwise (fun earlier later => rank earlier < rank later) ∧
    (∀ v, readVersionSelector s.current = .ok (some v) → ∀ w ∈ selections s calls,
      rank v < rank w) ∧
    ∀ w ∈ selections s calls, isVersion w = true ∧ ∃ c ∈ calls, c.manifest.version = w := by
  induction calls generalizing s with
  | nil => exact ⟨List.Pairwise.nil, fun v _ w hw => absurd hw List.not_mem_nil,
      fun w hw => absurd hw List.not_mem_nil⟩
  | cons c calls ih =>
    obtain ⟨hpair, habove, hvalid⟩ := ih (c.run s).1
    rcases c.run_cases s with ⟨e, hresult, hsame⟩ |
      ⟨selected, applied, hresult, hversion, hnow, hread, hv, hnewer⟩
    · have hstep : selections s (c :: calls) = selections (c.run s).1 calls := by
        rw [selections, ← Prod.mk.eta (p := c.run s), hresult]
      rw [hstep]
      refine ⟨hpair, fun v hread => habove v (by rw [hsame]; exact hread), fun w hw => ?_⟩
      obtain ⟨hw', d, hd, heq⟩ := hvalid w hw
      exact ⟨hw', d, List.mem_cons_of_mem _ hd, heq⟩
    · have hstep : selections s (c :: calls)
          = c.manifest.version :: selections (c.run s).1 calls := by
        rw [selections, ← Prod.mk.eta (p := c.run s), hresult, ← hversion]
      rw [hstep]
      have hrest := habove _ hnow
      refine ⟨List.pairwise_cons.mpr ⟨hrest, hpair⟩, ?_, ?_⟩
      · intro v hreadV w hw
        rw [hread] at hreadV
        have hlt := hnewer v (Except.ok.inj hreadV)
        rcases List.mem_cons.mp hw with hw | hw
        · exact hw ▸ hlt
        · exact lt_trans hlt (hrest w hw)
      · intro w hw
        rcases List.mem_cons.mp hw with hw | hw
        · exact ⟨hw ▸ hv, c, List.mem_cons_self, hw.symm⟩
        · obtain ⟨hw', d, hd, heq⟩ := hvalid w hw
          exact ⟨hw', d, List.mem_cons_of_mem _ hd, heq⟩

/-- The comparison is a strict weak order; it is the order of semantic versions on the versions
whose numbers fit in 64 bits, and a version that does not fit is compared wrongly with one that
does; and where all versions of a run fit, the selections strictly increase. -/
theorem update_versions_ordered (s : Install) (calls : List Call) :
    (IsStrictWeakOrder { v : String // isVersion v = true } fun a b => isNewer a.1 b.1 = true) ∧
    (∀ a, isVersion a = true →
      (Fits a ↔ ∀ b, isVersion b = true → Fits b → Agrees a b)) ∧
    ((∀ v, readVersionSelector s.current = .ok (some v) → Fits v) →
      (∀ c ∈ calls, Fits c.manifest.version) →
      (selections s calls).Pairwise (fun earlier later => precedence earlier < precedence later) ∧
      ∀ v, readVersionSelector s.current = .ok (some v) → ∀ w ∈ selections s calls,
        precedence v < precedence w) := by
  refine ⟨isNewer_strictWeak, fun a ha => fits_iff_agrees ha, fun hs hcalls => ?_⟩
  obtain ⟨hpair, habove, hvalid⟩ := selections_increase s calls
  have hread : ∀ w ∈ selections s calls, rank w = precedence w := by
    intro w hw
    obtain ⟨hv, c, hc, heq⟩ := hvalid w hw
    exact rank_of_fits hv (heq ▸ hcalls c hc)
  constructor
  · refine hpair.imp_of_mem fun hearlier hlater hlt => ?_
    rw [← hread _ hearlier, ← hread _ hlater]
    exact hlt
  · intro v hv w hw
    rw [← hread w hw, ← rank_of_fits (readVersionSelector_valid hv) (hs v hv)]
    exact habove v hv w hw

/-! ## Samples -/

/-- A machine on which everything succeeds. -/
def sampleMachine : Machine where
  locked := .ok ()
  bundle _ := .ok false
  version := "1.0.0"
  pending _ _ := .ok false
  versions := .ok ()
  present _ := false
  fetch _ _ _ := .ok [80, 75, 3, 4]
  digest _ := "ab"
  unpack _ := .ok ()
  contains _ := true
  metadata := .ok (none, none)
  authorize := .ok ()
  rename := .ok ()
  writePrevious := .ok ()
  writeCurrent := .ok ()

def sampleCall (version : String) : Call where
  machine := sampleMachine
  manifest := ⟨version, "https://updates.example/eefn.zip", "AB", some 4⟩
  program := "eefn"
  currentVersion := none
  httpsOnly := false

/-- An installation with a selected version. -/
def sampleInstall : Install := ⟨.ok (some "1.9.0\n"), .ok none⟩

/-- The second call is refused, since the release is selected. -/
def sampleCalls : List Call := [sampleCall "1.10.0", sampleCall "1.10.0-rc.1", sampleCall "1.10.1"]

theorem sample_selections :
    readVersionSelector sampleInstall.current = .ok (some "1.9.0") ∧ Fits "1.9.0" ∧
    selections sampleInstall sampleCalls = ["1.10.0", "1.10.1"] ∧
    (∀ c ∈ sampleCalls, Fits c.manifest.version) ∧ isVersion "1.10.0" = true ∧ Fits "1.10.0" := by
  decide +kernel

theorem update_versions_ordered_sample :
    (∀ b, isVersion b = true → Fits b → Agrees "1.10.0" b) ∧
    ["1.10.0", "1.10.1"].Pairwise (fun earlier later => precedence earlier < precedence later) ∧
    precedence "1.9.0" < precedence "1.10.0" := by
  obtain ⟨hread, hfits, hselections, hcalls, hvalid, hsmall⟩ := sample_selections
  obtain ⟨-, hagree, hruns⟩ := update_versions_ordered sampleInstall sampleCalls
  have hcurrent : ∀ v, readVersionSelector sampleInstall.current = .ok (some v) → Fits v := by
    intro v hv
    rw [hread] at hv
    exact (Option.some.inj (Except.ok.inj hv)) ▸ hfits
  obtain ⟨hpair, habove⟩ := hruns hcurrent hcalls
  rw [hselections] at hpair habove
  exact ⟨(hagree "1.10.0" hvalid).mp hsmall, hpair, habove "1.9.0" hread _ List.mem_cons_self⟩

theorem big_version_newer :
    isVersion "18446744073709551616.0.0" = true ∧ isVersion "1.0.0" = true ∧
    isNewer "18446744073709551616.0.0" "1.0.0" = false ∧
    isNewer "1.0.0" "18446744073709551616.0.0" = true ∧
    coreNumbers integer "1.0.0" < coreNumbers integer "18446744073709551616.0.0" := by
  decide +kernel

/-- A version that is the newer one is read as the older one, and would be replaced. -/
theorem big_version_replaced :
    isVersion "18446744073709551616.0.0" = true ∧ isVersion "1.0.0" = true ∧
    precedence "1.0.0" < precedence "18446744073709551616.0.0" ∧
    isNewer "18446744073709551616.0.0" "1.0.0" = false ∧
    isNewer "1.0.0" "18446744073709551616.0.0" = true := by
  obtain ⟨hbig, hone, hnot, hnewer, hlt⟩ := big_version_newer
  exact ⟨hbig, hone, Prod.Lex.toLex_lt_toLex.mpr (Or.inl hlt), hnot, hnewer⟩

end Eef.Node.Updater
