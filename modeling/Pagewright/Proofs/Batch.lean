/-
Pages of a batch are isolated from each other.

`BatchState` says what a batch has made of a disk after some of its pages: as
long as none of them renders, nothing; if the output directory cannot be made,
what the first attempt left behind; and otherwise every place that is named
like a file of such a page holds what a run for that page alone leaves there.

* `BatchState.next` — the next page keeps it that way, and its outcome is the
  one of a run for it alone;
* `generateBatch_isolated` — so it is for every page of a batch.
-/
import Pagewright.Proofs.Failures
import Pagewright.Proofs.Generation

namespace Pagewright

open Disk

variable {output : String} {registry : Registry} {settings : Settings}
  {start root current final : Disk} {place : Place} {page other : Page} {sources : PageSources}

/-- Outcomes that are the same, but for the wording of what storage refuses. -/
inductive SameOutcome {α : Type} : Except Failure α → Except Failure α → Prop
  | refl (outcome : Except Failure α) : SameOutcome outcome outcome
  | storage (refusal refusal' : StorageError) :
    SameOutcome (.error (.storage refusal)) (.error (.storage refusal'))

/-! ### Files of a page -/

/-- Whether a page has sources. -/
def Page.Renders (page : Page) (registry : Registry) (settings : Settings) : Prop :=
  ∃ sources, page.render registry settings = .ok sources

/-- Whether a place is named like a file of a page. -/
def Page.Owns (page : Page) (place : Place) : Prop :=
  place.getLast? = some (Kotlin.holderFile page.name) ∨
    place.getLast? = some (Kotlin.viewFile page.name)

/-- Only pages with the same name in Pascal case share places. -/
theorem Page.Owns.pascalCase_eq (h : page.Owns place) (h' : other.Owns place) :
    Kotlin.pascalCase page.name = Kotlin.pascalCase other.name := by
  rcases h with h | h <;> rcases h' with h' | h'
  · exact Kotlin.holderFile_inj.mp (Option.some.inj (h.symm.trans h'))
  · exact absurd (Option.some.inj (h.symm.trans h')) (Kotlin.holderFile_ne_viewFile _ _)
  · exact absurd (Option.some.inj (h'.symm.trans h)) (Kotlin.holderFile_ne_viewFile _ _)
  · exact Kotlin.viewFile_inj.mp (Option.some.inj (h.symm.trans h'))

theorem Page.not_owns_temporary {n : Nat} (h : place.getLast? = some (temporaryName n)) :
    ¬page.Owns place := by
  rintro (howns | howns)
  · exact temporaryName_ne_file n page.name _ (Option.some.inj (h.symm.trans howns))
  · exact temporaryName_ne_file n page.name _ (Option.some.inj (h.symm.trans howns))

section Seats

variable (hrender : page.render registry settings = .ok sources)

include hrender

theorem Page.owns_holder (h : root.seat output sources.stateHolder.name = some place) :
    page.Owns place := by
  obtain ⟨-, -, -, hholder, -⟩ := Page.render_eq_ok hrender
  exact .inl (hholder ▸ getLast?_of_seat h)

theorem Page.owns_view (h : root.seat output sources.view.name = some place) :
    page.Owns place := by
  obtain ⟨-, -, -, -, hview⟩ := Page.render_eq_ok hrender
  exact .inr (hview ▸ getLast?_of_seat h)

end Seats

/-! ### Two runs for a page -/

theorem Wrote.of_made {disk next : Disk} {result : Except StorageError Artifacts}
    (h : Wrote sources output disk result final)
    (hmake : makeDirectories (m := DiskM) output disk = (.ok (), next)) :
    (∃ holderPlace viewPlace,
      next.Takes output sources.stateHolder.name sources.view.name ∧
      next.seat output sources.stateHolder.name = some holderPlace ∧
      next.seat output sources.view.name = some viewPlace ∧
      result = .ok (sources.artifacts output) ∧
      Same (next.withBoth holderPlace viewPlace sources) final) ∨
    ¬next.Takes output sources.stateHolder.name sources.view.name ∧
      (∃ refusal, result = .error refusal) ∧ Same next final := by
  cases h with
  | @written next' _ holderPlace viewPlace hmake' htakes hholder hview hsame =>
    rw [hmake] at hmake'
    cases hmake'
    exact .inl ⟨holderPlace, viewPlace, htakes, hholder, hview, rfl, hsame⟩
  | @notTaken next' _ refusal hmake' htakes hsame =>
    rw [hmake] at hmake'
    cases hmake'
    exact .inr ⟨htakes, ⟨refusal, rfl⟩, hsame⟩
  | notMade hmake' =>
    rw [hmake] at hmake'
    cases hmake'

theorem Wrote.of_refused {disk next : Disk} {result : Except StorageError Artifacts}
    {refusal : StorageError} (h : Wrote sources output disk result final)
    (hmake : makeDirectories (m := DiskM) output disk = (.error refusal, next)) :
    result = .error refusal ∧ final = next := by
  cases h with
  | written hmake' =>
    rw [hmake] at hmake'
    cases hmake'
  | notTaken hmake' =>
    rw [hmake] at hmake'
    cases hmake'
  | notMade hmake' =>
    rw [hmake] at hmake'
    cases hmake'
    exact ⟨rfl, rfl⟩

/-- A run for a page changes only places of its own in the output directory. -/
theorem Wrote.entryAt_of_not_owns {disk next : Disk} {result : Except StorageError Artifacts}
    (hrender : page.render registry settings = .ok sources)
    (h : Wrote sources output disk result final)
    (hmake : makeDirectories (m := DiskM) output disk = (.ok (), next)) :
    Alike next final ∧ ∀ place, ¬page.Owns place → final.entryAt place = next.entryAt place := by
  rcases h.of_made hmake with ⟨holderPlace, viewPlace, -, hholder, hview, -, hsame⟩ | ⟨-, -, hsame⟩
  · refine ⟨(similar_of_written (page.named_of_render hrender) hholder hview hsame).toAlike,
      fun place howns => entryAt_of_written hholder hview hsame ?_ ?_⟩
    · exact fun hplace => howns (hplace ▸ Page.owns_holder hrender hholder)
    · exact fun hplace => howns (hplace ▸ Page.owns_view hrender hview)
  · exact ⟨hsame.alike, fun place _ => hsame.entryAt place⟩

/-- Two runs for a page, on disks that differ in files of other pages only, end alike. -/
theorem Wrote.sameOutcome {result result' : Except StorageError Artifacts} {final' : Disk}
    (h : Wrote sources output start result final)
    (h' : Wrote sources output current result' final')
    (hmake : makeDirectories (m := DiskM) output start = (.ok (), root))
    (hmake' : makeDirectories (m := DiskM) output current = (.ok (), current))
    (hsimilar : Similar root current)
    (howned : ∀ place, page.Owns place → current.entryAt place = root.entryAt place) :
    SameOutcome (result.mapError Failure.storage) (result'.mapError Failure.storage) ∧
      ∀ place, page.Owns place → final'.entryAt place = final.entryAt place := by
  rcases h.of_made hmake with ⟨holderPlace, viewPlace, htakes, hholder, hview, rfl, hsame⟩ |
    ⟨htakes, ⟨refusal, rfl⟩, hsame⟩
  · rcases h'.of_made hmake' with ⟨holderPlace', viewPlace', -, hholder', hview', rfl, hsame'⟩ |
      ⟨htakes', -, -⟩
    · refine ⟨.refl _, fun place howns => ?_⟩
      rw [hsimilar.toAlike.seat, hholder] at hholder'
      rw [hsimilar.toAlike.seat, hview] at hview'
      obtain rfl := Option.some.inj hholder'
      obtain rfl := Option.some.inj hview'
      rw [hsame.entryAt, hsame'.entryAt, withBoth, withBoth, entryAt_put (ne_nil_of_seat hview),
        entryAt_put (ne_nil_of_seat hholder), entryAt_put (ne_nil_of_seat hview),
        entryAt_put (ne_nil_of_seat hholder), howned place howns]
    · exact absurd (hsimilar.takes htakes) htakes'
  · rcases h'.of_made hmake' with ⟨-, -, htakes', -⟩ | ⟨-, ⟨refusal', rfl⟩, hsame'⟩
    · exact absurd (hsimilar.symm.takes htakes') htakes
    · refine ⟨.storage refusal refusal', fun place howns => ?_⟩
      rw [hsame.entryAt, hsame'.entryAt, howned place howns]

/-! ### The disk in the course of a batch -/

/-- What a batch has made of a disk after some pages, none of which shares its
files with another. -/
inductive BatchState (output : String) (registry : Registry) (settings : Settings) (start : Disk)
    (done : List Page) : Disk → Prop
  | untouched : (∀ page ∈ done, ¬page.Renders registry settings) →
    BatchState output registry settings start done start
  | refused {current : Disk} {refusal : StorageError} :
    makeDirectories (m := DiskM) output start = (.error refusal, current) →
    BatchState output registry settings start done current
  | made {root current : Disk} :
    makeDirectories (m := DiskM) output start = (.ok (), root) → Alike root current →
    (∀ page ∈ done, page.Renders registry settings → ∀ place, page.Owns place →
      current.entryAt place
        = (generate (m := DiskM) page output registry settings start).2.entryAt place) →
    (∀ place, (∀ page ∈ done, page.Renders registry settings → ¬page.Owns place) →
      current.entryAt place = root.entryAt place) →
    BatchState output registry settings start done current

section Next

variable {done : List Page} (hrender : page.render registry settings = .ok sources)

include hrender

theorem generate_snd (disk : Disk) :
    (generate (m := DiskM) page output registry settings disk).2
      = (writeInto (m := DiskM) output sources disk).2 := by
  rw [generate_of_render hrender]

/-- The first page that renders sets the state of a batch. -/
theorem BatchState.of_untouched (hnone : ∀ other ∈ done, ¬other.Renders registry settings) :
    BatchState output registry settings start (done ++ [page])
      (generate (m := DiskM) page output registry settings start).2 := by
  have hwrote := writeInto_wrote (Page.named_of_render hrender) output start
  rw [generate_snd hrender]
  cases hmake : makeDirectories (m := DiskM) output start with
  | mk result next =>
    cases result with
    | error refusal =>
      rw [(hwrote.of_refused hmake).2]
      exact .refused hmake
    | ok made =>
      obtain ⟨halike, hothers⟩ := hwrote.entryAt_of_not_owns hrender hmake
      refine .made hmake halike (fun other hmem hrenders place _ => ?_) fun place hplace => ?_
      · rcases List.mem_append.mp hmem with hmem | hmem
        · exact absurd hrenders (hnone other hmem)
        · rw [List.mem_singleton.mp hmem, generate_snd hrender]
      · have hpage : page ∈ done ++ [page] :=
          List.mem_append_right done (List.mem_singleton_self page)
        exact hothers place (hplace page hpage ⟨sources, hrender⟩)

/-- Where the output directory cannot be made for one page, it cannot for the next. -/
theorem BatchState.of_refused {refusal : StorageError}
    (hmake : makeDirectories (m := DiskM) output start = (.error refusal, current)) :
    SameOutcome (generate (m := DiskM) page output registry settings start).1
        (generate (m := DiskM) page output registry settings current).1 ∧
      (generate (m := DiskM) page output registry settings current).2 = current := by
  have hsources := Page.named_of_render hrender
  obtain ⟨-, refusal', hmake'⟩ := grows_of_refused hmake
  obtain ⟨hresult, -⟩ := (writeInto_wrote hsources output start).of_refused hmake
  obtain ⟨hresult', hfinal'⟩ := (writeInto_wrote hsources output current).of_refused hmake'
  rw [generate_of_render hrender, generate_of_render hrender, hresult, hresult', hfinal']
  exact ⟨.storage refusal refusal', rfl⟩

/-- On a disk that the batch has written to, a page finds what it would find alone. -/
theorem BatchState.of_made
    (hnew : ∀ other ∈ done, Kotlin.pascalCase other.name ≠ Kotlin.pascalCase page.name)
    (hmake : makeDirectories (m := DiskM) output start = (.ok (), root))
    (halike : Alike root current)
    (howned : ∀ other ∈ done, other.Renders registry settings → ∀ place, other.Owns place →
      current.entryAt place
        = (generate (m := DiskM) other output registry settings start).2.entryAt place)
    (hothers : ∀ place, (∀ other ∈ done, other.Renders registry settings → ¬other.Owns place) →
      current.entryAt place = root.entryAt place) :
    SameOutcome (generate (m := DiskM) page output registry settings start).1
        (generate (m := DiskM) page output registry settings current).1 ∧
      BatchState output registry settings start (done ++ [page])
        (generate (m := DiskM) page output registry settings current).2 := by
  have hsources := Page.named_of_render hrender
  have halone := writeInto_wrote hsources output start
  have hafter := writeInto_wrote hsources output current
  have hmake' : makeDirectories (m := DiskM) output current = (.ok (), current) :=
    makeDirectories_of_stands ((grows_of_made hmake).2.imp_right halike.stands)
  -- Nothing that the page looks at has been touched by those before it
  have hfree (place : Place) (hplace : page.Owns place) :
      current.entryAt place = root.entryAt place :=
    hothers place fun other hother _ howns => hnew other hother (howns.pascalCase_eq hplace)
  have hsimilar : Similar root current :=
    ⟨halike, fun place n hplace =>
      hothers place fun other _ _ => other.not_owns_temporary hplace⟩
  obtain ⟨hsame, hplaces⟩ := halone.sameOutcome hafter hmake hmake' hsimilar hfree
  obtain ⟨halike', hkept⟩ := hafter.entryAt_of_not_owns hrender hmake'
  refine ⟨by rwa [generate_of_render hrender, generate_of_render hrender], ?_⟩
  rw [generate_snd hrender]
  refine .made hmake (halike.trans halike') (fun other hmem hrenders place hplace => ?_)
    fun place hplace => ?_
  · rcases List.mem_append.mp hmem with hmem | hmem
    · rw [hkept place fun howns => hnew other hmem (hplace.pascalCase_eq howns)]
      exact howned other hmem hrenders place hplace
    · obtain rfl := List.mem_singleton.mp hmem
      rw [generate_snd hrender]
      exact hplaces place hplace
  · have hpage : page ∈ done ++ [page] :=
      List.mem_append_right done (List.mem_singleton_self page)
    rw [hkept place (hplace page hpage ⟨sources, hrender⟩)]
    exact hothers place fun other hmem => hplace other (List.mem_append_left [page] hmem)

end Next

/-- **The next page of a batch.**  Its outcome is the one of a run for it
alone, and the disk stays as the batch should have made it. -/
theorem BatchState.next {done : List Page}
    (h : BatchState output registry settings start done current)
    (hnew : ∀ other ∈ done, Kotlin.pascalCase other.name ≠ Kotlin.pascalCase page.name) :
    SameOutcome (generate (m := DiskM) page output registry settings start).1
        (generate (m := DiskM) page output registry settings current).1 ∧
      BatchState output registry settings start (done ++ [page])
        (generate (m := DiskM) page output registry settings current).2 := by
  cases hrender : page.render registry settings with
  | error failure =>
    -- A page that does not render leaves the disk alone, and claims nothing about it.
    have hfails : ¬page.Renders registry settings := by
      rintro ⟨sources, hsources⟩
      rw [hrender] at hsources
      cases hsources
    have hdone {P : Page → Prop} (hP : ∀ other ∈ done, other.Renders registry settings → P other) :
        ∀ other ∈ done ++ [page], other.Renders registry settings → P other := by
      intro other hother hrenders
      rcases List.mem_append.mp hother with hother | hother
      · exact hP other hother hrenders
      · exact absurd (List.mem_singleton.mp hother ▸ hrenders) hfails
    rw [generate_of_failure hrender, generate_of_failure hrender]
    refine ⟨.refl _, ?_⟩
    cases h with
    | untouched hnone => exact .untouched (hdone hnone)
    | refused hmake => exact .refused hmake
    | made hmake halike howned hother =>
      refine .made hmake halike (hdone howned) fun place hplace => hother place ?_
      exact fun other hmem => hplace other (List.mem_append_left [page] hmem)
  | ok sources =>
    cases h with
    | untouched hnone => exact ⟨.refl _, BatchState.of_untouched hrender hnone⟩
    | refused hmake =>
      obtain ⟨hsame, hcurrent⟩ := BatchState.of_refused hrender hmake
      rw [hcurrent]
      exact ⟨hsame, .refused hmake⟩
    | made hmake halike howned hothers =>
      exact BatchState.of_made hrender hnew hmake halike howned hothers

/-! ### The pages of a batch -/

/-- The pages that nobody has claimed the files of when it is their turn. -/
def unclaimed (claimed : List String) : List Page → List Page
  | [] => []
  | page :: pages =>
    let later := unclaimed (Kotlin.stateHolderType page.name :: claimed) pages
    if claimed.contains (Kotlin.stateHolderType page.name) then later else page :: later

theorem not_claimed_of_mem_unclaimed : ∀ {pages : List Page} {claimed : List String},
    page ∈ unclaimed claimed pages → Kotlin.stateHolderType page.name ∉ claimed
  | [], _, h => absurd h List.not_mem_nil
  | first :: pages, claimed, h => by
    -- The claims only become more.
    have hlater (h : page ∈ unclaimed (Kotlin.stateHolderType first.name :: claimed) pages) :
        Kotlin.stateHolderType page.name ∉ claimed :=
      fun hclaimed => not_claimed_of_mem_unclaimed h (List.mem_cons_of_mem _ hclaimed)
    rw [unclaimed] at h
    split_ifs at h with hfirst
    · exact hlater h
    · rcases List.mem_cons.mp h with rfl | h
      · simpa using hfirst
      · exact hlater h

theorem pairwise_unclaimed : ∀ (pages : List Page) (claimed : List String),
    (unclaimed claimed pages).Pairwise fun page other =>
      Kotlin.pascalCase page.name ≠ Kotlin.pascalCase other.name
  | [], _ => List.Pairwise.nil
  | page :: pages, claimed => by
    have hlater := pairwise_unclaimed pages (Kotlin.stateHolderType page.name :: claimed)
    rw [unclaimed]
    split_ifs
    · exact hlater
    · refine List.pairwise_cons.mpr ⟨fun other hother heq => ?_, hlater⟩
      refine not_claimed_of_mem_unclaimed hother ?_
      rw [← Kotlin.stateHolderType_inj.mpr heq]
      exact List.mem_cons_self

/-- Whether the page at a position has the files of an earlier one. -/
def Repeats (pages : List Page) (i : Nat) (page : Page) : Prop :=
  ∃ j < i, ∃ other, pages[j]? = some other ∧
    Kotlin.pascalCase other.name = Kotlin.pascalCase page.name

theorem repeats_succ {first : Page} {pages : List Page} {i : Nat} :
    Repeats (first :: pages) (i + 1) page ↔
      Kotlin.pascalCase first.name = Kotlin.pascalCase page.name ∨ Repeats pages i page := by
  constructor
  · rintro ⟨j, hj, other, hother, heq⟩
    cases j with
    | zero =>
      obtain rfl : first = other := by simpa using hother
      exact .inl heq
    | succ j => exact .inr ⟨j, Nat.lt_of_succ_lt_succ hj, other, by simpa using hother, heq⟩
  · rintro (heq | ⟨j, hj, other, hother, heq⟩)
    · exact ⟨0, Nat.succ_pos i, first, rfl, heq⟩
    · exact ⟨j + 1, Nat.succ_lt_succ hj, other, by simpa using hother, heq⟩

theorem mem_unclaimed : ∀ {pages : List Page} {claimed : List String} {i : Nat},
    pages[i]? = some page → Kotlin.stateHolderType page.name ∉ claimed →
    ¬Repeats pages i page → page ∈ unclaimed claimed pages
  | [], _, i, h, _, _ => by simp at h
  | first :: pages, claimed, i, h, hclaimed, hrepeats => by
    rw [unclaimed]
    cases i with
    | zero =>
      obtain rfl : first = page := by simpa using h
      rw [if_neg (by simpa using hclaimed)]
      exact List.mem_cons_self
    | succ i =>
      rw [repeats_succ, not_or] at hrepeats
      -- The first page claims files of its own, as it is not the one that is repeated.
      have hlater : page ∈ unclaimed (Kotlin.stateHolderType first.name :: claimed) pages := by
        refine mem_unclaimed (by simpa using h) (fun hmem => ?_) hrepeats.2
        rcases List.mem_cons.mp hmem with heq | hmem
        · exact hrepeats.1 (Kotlin.stateHolderType_inj.mp heq.symm)
        · exact hclaimed hmem
      split_ifs
      · exact hlater
      · exact List.mem_cons_of_mem first hlater

/-! ### Running a batch -/

section Run

variable {claimed : List String} {pages : List Page} {disk : Disk}

theorem generateUnclaimed_of_claimed {dryRun : Bool}
    (h : Kotlin.stateHolderType page.name ∈ claimed) :
    generateUnclaimed (m := DiskM) output registry settings dryRun claimed (page :: pages) disk
      = (⟨page.name, .error (.duplicatePage page.name)⟩ ::
          (generateUnclaimed (m := DiskM) output registry settings dryRun
            (Kotlin.stateHolderType page.name :: claimed) pages disk).1,
        (generateUnclaimed (m := DiskM) output registry settings dryRun
          (Kotlin.stateHolderType page.name :: claimed) pages disk).2) := by
  have hcontains : claimed.contains (Kotlin.stateHolderType page.name) = true := by simpa using h
  rw [generateUnclaimed]
  dsimp only
  rw [if_pos hcontains]
  rfl

theorem generateUnclaimed_next {dryRun : Bool} (h : Kotlin.stateHolderType page.name ∉ claimed) :
    generateUnclaimed (m := DiskM) output registry settings dryRun claimed (page :: pages) disk
      = (⟨page.name, (generateOne (m := DiskM) output registry settings dryRun page disk).1⟩ ::
          (generateUnclaimed (m := DiskM) output registry settings dryRun
            (Kotlin.stateHolderType page.name :: claimed) pages
            (generateOne (m := DiskM) output registry settings dryRun page disk).2).1,
        (generateUnclaimed (m := DiskM) output registry settings dryRun
          (Kotlin.stateHolderType page.name :: claimed) pages
          (generateOne (m := DiskM) output registry settings dryRun page disk).2).2) := by
  have hcontains : ¬claimed.contains (Kotlin.stateHolderType page.name) = true := by simpa using h
  rw [generateUnclaimed]
  dsimp only
  rw [if_neg hcontains]
  rfl

theorem generateUnclaimed_of_unclaimed (h : Kotlin.stateHolderType page.name ∉ claimed) :
    generateUnclaimed (m := DiskM) output registry settings false claimed (page :: pages) disk
      = (⟨page.name, (generate (m := DiskM) page output registry settings disk).1.map some⟩ ::
          (generateUnclaimed (m := DiskM) output registry settings false
            (Kotlin.stateHolderType page.name :: claimed) pages
            (generate (m := DiskM) page output registry settings disk).2).1,
        (generateUnclaimed (m := DiskM) output registry settings false
          (Kotlin.stateHolderType page.name :: claimed) pages
          (generate (m := DiskM) page output registry settings disk).2).2) :=
  generateUnclaimed_next h

end Run

/-- The claims of a batch, and the pages that have made them. -/
def ClaimedBy (claimed : List String) (done : List Page) : Prop :=
  ∀ type, type ∈ claimed ↔ ∃ page ∈ done, Kotlin.stateHolderType page.name = type

theorem ClaimedBy.again {claimed : List String} {done : List Page} (h : ClaimedBy claimed done)
    (hpage : Kotlin.stateHolderType page.name ∈ claimed) :
    ClaimedBy (Kotlin.stateHolderType page.name :: claimed) done := by
  intro type
  rw [List.mem_cons, ← h type]
  exact ⟨fun hmem => hmem.elim (fun heq => heq ▸ hpage) id, .inr⟩

theorem ClaimedBy.new {claimed : List String} {done : List Page} (h : ClaimedBy claimed done)
    (page : Page) : ClaimedBy (Kotlin.stateHolderType page.name :: claimed) (done ++ [page]) := by
  intro type
  rw [List.mem_cons, h type]
  simp only [List.mem_append, List.mem_singleton]
  constructor
  · rintro (rfl | ⟨other, hother, rfl⟩)
    · exact ⟨page, .inr rfl, rfl⟩
    · exact ⟨other, .inl hother, rfl⟩
  · rintro ⟨other, hother | rfl, rfl⟩
    · exact .inr ⟨other, hother, rfl⟩
    · exact .inl rfl

theorem ClaimedBy.pascalCase_ne {claimed : List String} {done : List Page}
    (h : ClaimedBy claimed done) (hpage : Kotlin.stateHolderType page.name ∉ claimed) :
    ∀ other ∈ done, Kotlin.pascalCase other.name ≠ Kotlin.pascalCase page.name :=
  fun other hother heq => hpage ((h _).mpr ⟨other, hother, Kotlin.stateHolderType_inj.mpr heq⟩)

/-- The state of a batch is kept by all of its pages. -/
theorem BatchState.run : ∀ {pages : List Page} {claimed : List String} {done : List Page}
    {current : Disk}, BatchState output registry settings start done current →
    ClaimedBy claimed done →
    BatchState output registry settings start (done ++ unclaimed claimed pages)
      (generateUnclaimed (m := DiskM) output registry settings false claimed pages current).2
  | [], claimed, done, current, h, _ => by
    rw [unclaimed, List.append_nil]
    exact h
  | page :: pages, claimed, done, current, h, hclaimed => by
    rw [unclaimed]
    by_cases hpage : Kotlin.stateHolderType page.name ∈ claimed
    · rw [generateUnclaimed_of_claimed hpage, if_pos (by simpa using hpage)]
      exact BatchState.run h (hclaimed.again hpage)
    · rw [generateUnclaimed_of_unclaimed hpage, if_neg (by simpa using hpage)]
      rw [← List.singleton_append, ← List.append_assoc]
      exact BatchState.run (h.next (hclaimed.pascalCase_ne hpage)).2 (hclaimed.new page)

/-- Every page of a batch has its report, in order. -/
theorem names_generateUnclaimed {dryRun : Bool} :
    ∀ (pages : List Page) (claimed : List String) (disk : Disk),
    (generateUnclaimed (m := DiskM) output registry settings dryRun claimed pages disk).1.map
      PageReport.page = pages.map Page.name
  | [], _, _ => rfl
  | page :: pages, claimed, disk => by
    by_cases hpage : Kotlin.stateHolderType page.name ∈ claimed
    · rw [generateUnclaimed_of_claimed hpage, List.map_cons, names_generateUnclaimed]
      rfl
    · rw [generateUnclaimed_next hpage, List.map_cons, names_generateUnclaimed]
      rfl

theorem SameOutcome.map {α β : Type} (f : α → β) {outcome outcome' : Except Failure α}
    (h : SameOutcome outcome outcome') : SameOutcome (outcome.map f) (outcome'.map f) := by
  cases h with
  | refl => exact .refl _
  | storage refusal refusal' => exact .storage refusal refusal'

/-- The outcome of every page is the one of a run for it alone, unless its
files have been claimed. -/
theorem BatchState.outcome {report : PageReport} : ∀ {pages : List Page} {claimed : List String}
    {done : List Page} {current : Disk} {i : Nat},
    BatchState output registry settings start done current → ClaimedBy claimed done →
    pages[i]? = some page →
    (generateUnclaimed (m := DiskM) output registry settings false claimed pages current).1[i]?
      = some report →
    ((Kotlin.stateHolderType page.name ∈ claimed ∨ Repeats pages i page) →
      report.outcome = .error (.duplicatePage page.name)) ∧
    (¬(Kotlin.stateHolderType page.name ∈ claimed ∨ Repeats pages i page) →
      SameOutcome ((generate (m := DiskM) page output registry settings start).1.map some)
        report.outcome)
  | [], _, _, _, i, _, _, hpage, _ => by simp at hpage
  | first :: pages, claimed, done, current, 0, h, hclaimed, hpage, hreport => by
    obtain rfl : first = page := by simpa using hpage
    have hfirst : ¬Repeats (first :: pages) 0 first :=
      fun ⟨j, hj, _⟩ => absurd hj (Nat.not_lt_zero j)
    by_cases hmem : Kotlin.stateHolderType first.name ∈ claimed
    · rw [generateUnclaimed_of_claimed hmem] at hreport
      obtain rfl := Option.some.inj hreport
      exact ⟨fun _ => rfl, fun hnot => absurd (.inl hmem) hnot⟩
    · rw [generateUnclaimed_of_unclaimed hmem] at hreport
      obtain rfl := Option.some.inj hreport
      refine ⟨fun hrepeats => absurd hrepeats (not_or.mpr ⟨hmem, hfirst⟩), fun _ => ?_⟩
      exact (h.next (hclaimed.pascalCase_ne hmem)).1.map some
  | first :: pages, claimed, done, current, i + 1, h, hclaimed, hpage, hreport => by
    have hpage' : pages[i]? = some page := by simpa using hpage
    -- A claim made by the first page is a claim made earlier for those that follow
    have hcases : (Kotlin.stateHolderType page.name ∈ claimed ∨
        Repeats (first :: pages) (i + 1) page) ↔
        (Kotlin.stateHolderType page.name ∈ Kotlin.stateHolderType first.name :: claimed ∨
          Repeats pages i page) := by
      rw [repeats_succ, List.mem_cons, ← Kotlin.stateHolderType_inj, eq_comm]
      tauto
    rw [hcases]
    by_cases hmem : Kotlin.stateHolderType first.name ∈ claimed
    · rw [generateUnclaimed_of_claimed hmem] at hreport
      exact BatchState.outcome h (hclaimed.again hmem) hpage' (by simpa using hreport)
    · rw [generateUnclaimed_of_unclaimed hmem] at hreport
      exact BatchState.outcome (h.next (hclaimed.pascalCase_ne hmem)).2 (hclaimed.new first) hpage'
        (by simpa using hreport)

/-! ### After a batch -/

theorem toOption_findEntry_congr {disk other : Disk} {name : String} (hn : Path.Plain name)
    (halike : Alike disk other)
    (hentries : ∀ place, place.getLast? = some name →
      other.entryAt place = disk.entryAt place) (directory : String) :
    (other.findEntry (Path.join directory name)).toOption
      = (disk.findEntry (Path.join directory name)).toOption := by
  rw [toOption_findEntry_join hn, toOption_findEntry_join hn, halike.spot]
  refine Option.bind_congr fun place hplace => ?_
  rw [hentries place (getLast?_of_spot hplace)]

section After

variable {done : List Page} (h : BatchState output registry settings start done final)
  (hpage : page ∈ done)

include h hpage

/-- Where a page renders, a batch leaves what a run for that page alone leaves. -/
theorem BatchState.similar_alone (hrender : page.render registry settings = .ok sources) :
    Alike (generate (m := DiskM) page output registry settings start).2 final ∧
      ∀ place, page.Owns place → final.entryAt place
        = (generate (m := DiskM) page output registry settings start).2.entryAt place := by
  have hwrote := writeInto_wrote (Page.named_of_render hrender) output start
  cases h with
  | untouched hnone => exact absurd ⟨sources, hrender⟩ (hnone page hpage)
  | refused hmake =>
    rw [generate_snd hrender, (hwrote.of_refused hmake).2]
    exact ⟨(Same.refl final).alike, fun _ _ => rfl⟩
  | made hmake halike howned hothers =>
    refine ⟨?_, howned page hpage ⟨sources, hrender⟩⟩
    rw [generate_snd hrender]
    exact (hwrote.entryAt_of_not_owns hrender hmake).1.symm.trans halike

variable (hdistinct : done.Pairwise fun page other =>
  Kotlin.pascalCase page.name ≠ Kotlin.pascalCase other.name)

include hdistinct

/-- Where a page does not render, a batch leaves what making the output
directory leaves, if anybody has made it. -/
theorem BatchState.similar_made (hfails : ¬page.Renders registry settings) :
    ∃ root, Alike root final ∧ (∀ place, page.Owns place →
      final.entryAt place = root.entryAt place) ∧
      (root = start ∨ ∃ result, makeDirectories (m := DiskM) output start = (result, root)) := by
  cases h with
  | untouched => exact ⟨start, (Same.refl start).alike, fun _ _ => rfl, .inl rfl⟩
  | refused hmake => exact ⟨final, (Same.refl final).alike, fun _ _ => rfl, .inr ⟨_, hmake⟩⟩
  | @made root _ hmake halike howned hothers =>
    refine ⟨root, halike, fun place hplace => ?_, .inr ⟨_, hmake⟩⟩
    refine hothers place fun other hother hrenders howns => ?_
    -- The page that owns the place would be the one that does not render
    have heq : other = page := by
      by_contra hne
      have : Std.Symm fun page other : Page =>
          Kotlin.pascalCase page.name ≠ Kotlin.pascalCase other.name := ⟨fun _ _ h => h.symm⟩
      exact hdistinct.forall hother hpage hne (howns.pascalCase_eq hplace)
    exact hfails (heq ▸ hrenders)

end After

/-- What a page of a batch has to do with the others: its outcome, and the
places of its files after the batch, are as if there were no others. -/
structure Page.IsolatedIn (page : Page) (output : String) (registry : Registry)
    (settings : Settings) (start final : Disk) (outcome : Except Failure (Option Artifacts)) :
    Prop where
  /-- The outcome is the one of a run for the page alone. -/
  alone : SameOutcome
    ((generate (m := DiskM) page output registry settings start).1.map some) outcome
  /-- Its paths lead to what that run leaves there, -/
  files : page.Renders registry settings ∨ (start.home output).isSome →
    ∀ name, name = Kotlin.holderFile page.name ∨ name = Kotlin.viewFile page.name →
      (final.findEntry (Path.join output name)).toOption
        = ((generate (m := DiskM) page output registry settings start).2.findEntry
            (Path.join output name)).toOption
  /-- unless the page does not render: then its places hold what they held, or
  directories that others had made on the way to the output. -/
  places : ¬page.Renders registry settings → ∀ place, page.Owns place →
    final.entryAt place = start.entryAt place ∨
      start.entryAt place = none ∧ final.entryAt place = some .directory ∧
        ∃ above ∈ Path.ancestors output, final.home above = some place
  /-- If the page is generated, its files stay as they are. -/
  kept : ∀ artifacts, outcome = .ok (some artifacts) →
    ∃ sources root, page.render registry settings = .ok sources ∧
      final.findEntry artifacts.stateHolder = .ok (root ++ [Kotlin.holderFile page.name],
        .file sources.stateHolder.content.toUTF8) ∧
      final.findEntry artifacts.view = .ok (root ++ [Kotlin.viewFile page.name],
        .file sources.view.content.toUTF8)

theorem Page.owns_of_getLast? {name : String}
    (hname : name = Kotlin.holderFile page.name ∨ name = Kotlin.viewFile page.name)
    (h : place.getLast? = some name) : page.Owns place := by
  rcases hname with rfl | rfl
  · exact .inl h
  · exact .inr h

theorem Kotlin.plain_of_file {name : String}
    (hname : name = Kotlin.holderFile page.name ∨ name = Kotlin.viewFile page.name) :
    Path.Plain name := by
  rcases hname with rfl | rfl
  · exact plain_holderFile page.name
  · exact plain_viewFile page.name

theorem SameOutcome.eq_ok {α : Type} {outcome : Except Failure α} {value : α}
    (h : SameOutcome outcome (.ok value)) : outcome = .ok value := by
  cases h with
  | refl => rfl

section Isolated

variable {done : List Page} (h : BatchState output registry settings start done final)
  (hpage : page ∈ done)
  (hdistinct : done.Pairwise fun page other =>
    Kotlin.pascalCase page.name ≠ Kotlin.pascalCase other.name)

include h hpage hdistinct

/-- The paths of a page lead to what a run for it alone leaves there, if it
renders or if the output directory was there from the start. -/
theorem BatchState.findEntry_eq
    (hknown : page.Renders registry settings ∨ (start.home output).isSome) {name : String}
    (hname : name = Kotlin.holderFile page.name ∨ name = Kotlin.viewFile page.name) :
    (final.findEntry (Path.join output name)).toOption
      = ((generate (m := DiskM) page output registry settings start).2.findEntry
          (Path.join output name)).toOption := by
  by_cases hrenders : page.Renders registry settings
  · obtain ⟨sources, hrender⟩ := hrenders
    obtain ⟨halike, hplaces⟩ := h.similar_alone hpage hrender
    exact toOption_findEntry_congr (Kotlin.plain_of_file hname) halike
      (fun place hlast => hplaces place (Page.owns_of_getLast? hname hlast)) output
  · have hhome := hknown.resolve_left hrenders
    obtain ⟨root, halike, hplaces, hroot⟩ := h.similar_made hpage hdistinct hrenders
    -- There was nothing to make, so nothing has been made
    obtain rfl : root = start := by
      rcases hroot with hroot | ⟨result, hmake⟩
      · exact hroot
      · exact eq_of_made_or_refused hhome hmake
    have halone : (generate (m := DiskM) page output registry settings root).2 = root := by
      cases hrender : page.render registry settings with
      | ok sources => exact absurd ⟨sources, hrender⟩ hrenders
      | error failure => rw [generate_of_failure hrender]
    rw [halone]
    exact toOption_findEntry_congr (Kotlin.plain_of_file hname) halike
      (fun place hlast => hplaces place (Page.owns_of_getLast? hname hlast)) output

/-- Where a page does not render, its places hold what they held, or
directories on the way to the output. -/
theorem BatchState.entryAt_of_fails (hfails : ¬page.Renders registry settings)
    (hplace : page.Owns place) :
    final.entryAt place = start.entryAt place ∨
      start.entryAt place = none ∧ final.entryAt place = some .directory ∧
        ∃ above ∈ Path.ancestors output, final.home above = some place := by
  obtain ⟨root, halike, hplaces, rfl | ⟨result, hmake⟩⟩ := h.similar_made hpage hdistinct hfails
  · exact .inl (hplaces place hplace)
  · rw [hplaces place hplace]
    refine ((grows_of_makeDirectories hmake).entryAt place).imp_right ?_
    rintro ⟨hnone, hdirectory, above, habove, hhome⟩
    exact ⟨hnone, hdirectory, above, habove, (halike.home above).trans hhome⟩

/-- The files of a page that is generated are there after the batch. -/
theorem BatchState.contents {artifacts : Artifacts}
    (hok : (generate (m := DiskM) page output registry settings start).1 = .ok artifacts) :
    ∃ sources root, page.render registry settings = .ok sources ∧
      final.findEntry artifacts.stateHolder = .ok (root ++ [Kotlin.holderFile page.name],
        .file sources.stateHolder.content.toUTF8) ∧
      final.findEntry artifacts.view = .ok (root ++ [Kotlin.viewFile page.name],
        .file sources.view.content.toUTF8) := by
  have hwhole := generate_all_or_nothing page output registry settings start
  have hfiles {name : String} (hrenders : page.Renders registry settings)
      (hname : name = Kotlin.holderFile page.name ∨ name = Kotlin.viewFile page.name) :=
    h.findEntry_eq hpage hdistinct (.inl hrenders) hname
  cases hresult : generate (m := DiskM) page output registry settings start with
  | mk result alone =>
    rw [hresult] at hok hwhole hfiles
    obtain rfl : result = .ok artifacts := hok
    obtain ⟨sources, root, hrender, -, hholder, hview, -⟩ := hwhole.contents
    refine ⟨sources, root, hrender, ?_, ?_⟩
    · rw [hwhole.paths] at hholder ⊢
      refine eq_ok_of_toOption ((hfiles ⟨sources, hrender⟩ (.inl rfl)).trans ?_)
      rw [hholder]
      rfl
    · rw [hwhole.paths] at hview ⊢
      refine eq_ok_of_toOption ((hfiles ⟨sources, hrender⟩ (.inr rfl)).trans ?_)
      rw [hview]
      rfl

theorem BatchState.isolatedIn {outcome : Except Failure (Option Artifacts)}
    (hsame : SameOutcome
      ((generate (m := DiskM) page output registry settings start).1.map some) outcome) :
    page.IsolatedIn output registry settings start final outcome := by
  constructor
  case alone => exact hsame
  case files => exact fun hknown name => h.findEntry_eq hpage hdistinct hknown
  case places => exact fun hfails place => h.entryAt_of_fails hpage hdistinct hfails
  case kept =>
    rintro artifacts rfl
    have hok := hsame.eq_ok
    cases hresult : (generate (m := DiskM) page output registry settings start).1 with
    | error failure =>
      rw [hresult] at hok
      cases hok
    | ok artifacts' =>
      rw [hresult] at hok
      obtain rfl : artifacts' = artifacts := Option.some.inj (Except.ok.inj hok)
      exact h.contents hpage hdistinct hresult

end Isolated

/-! ### Whole batches -/

theorem generate_ne_duplicatePage (page : Page) (output : String) (registry : Registry)
    (settings : Settings) (disk : Disk) (name : String) :
    (generate (m := DiskM) page output registry settings disk).1
      ≠ .error (.duplicatePage name) := by
  cases hrender : page.render registry settings with
  | error failure =>
    rw [generate_of_failure hrender]
    intro h
    injection h with h
    have hpage : (Failure.duplicatePage name).IsOfPage := Page.isOfPage_of_render (h ▸ hrender)
    exact hpage
  | ok sources =>
    rw [generate_of_render hrender]
    cases (writeInto (m := DiskM) output sources disk).1 with
    | error refusal => exact fun h => by cases h
    | ok artifacts => exact fun h => by cases h

theorem SameOutcome.ne_duplicatePage {α : Type} {outcome outcome' : Except Failure α}
    (h : SameOutcome outcome outcome') {name : String}
    (hne : outcome ≠ .error (.duplicatePage name)) : outcome' ≠ .error (.duplicatePage name) := by
  cases h with
  | refl => exact hne
  | storage refusal refusal' => exact fun h => by cases h

/-- **Pages of a batch are isolated from each other.**  There is one report
for every page, in order.  It says that the page repeats an earlier one
exactly if it has the same name in Pascal case; and any other page is treated
as if there were no others. -/
theorem generateBatch_isolated (pages : List Page) (output : String) (registry : Registry)
    (settings : Settings) (start : Disk) :
    (generateBatch (m := DiskM) pages output registry settings false start).1.map PageReport.page
      = pages.map Page.name ∧
    ∀ (i : Nat) (page : Page) (report : PageReport), pages[i]? = some page →
      (generateBatch (m := DiskM) pages output registry settings false start).1[i]? = some report →
      ((∃ name, report.outcome = .error (.duplicatePage name)) ↔ Repeats pages i page) ∧
      (Repeats pages i page → report.outcome = .error (.duplicatePage page.name)) ∧
      (¬Repeats pages i page → page.IsolatedIn output registry settings start
        (generateBatch (m := DiskM) pages output registry settings false start).2
        report.outcome) := by
  refine ⟨names_generateUnclaimed pages [] start, fun i page report hpage hreport => ?_⟩
  have hstate : BatchState output registry settings start [] start :=
    .untouched fun _ h => absurd h List.not_mem_nil
  have hclaimed : ClaimedBy [] [] := fun type => by simp
  have hempty : Kotlin.stateHolderType page.name ∉ [] := List.not_mem_nil
  obtain ⟨hrepeated, hfirst⟩ := hstate.outcome hclaimed hpage hreport
  -- No files are claimed at the start, so only earlier pages count.
  have hrepeated' (h : Repeats pages i page) :
      report.outcome = .error (.duplicatePage page.name) :=
    hrepeated (.inr h)
  have hfirst' (h : ¬Repeats pages i page) : SameOutcome
      ((generate (m := DiskM) page output registry settings start).1.map some) report.outcome :=
    hfirst (not_or.mpr ⟨hempty, h⟩)
  refine ⟨⟨fun ⟨name, hname⟩ => ?_, fun h => ⟨page.name, hrepeated' h⟩⟩, hrepeated', fun h => ?_⟩
  · by_contra h
    refine (hfirst' h).ne_duplicatePage (fun hmap => ?_) hname
    refine generate_ne_duplicatePage page output registry settings start name ?_
    cases hresult : (generate (m := DiskM) page output registry settings start).1 with
    | error failure =>
      rw [hresult] at hmap
      injection hmap with hfailure
      rw [hfailure]
    | ok artifacts =>
      rw [hresult] at hmap
      cases hmap
  · exact (hstate.run hclaimed).isolatedIn (mem_unclaimed hpage hempty h)
      (pairwise_unclaimed pages []) (hfirst' h)

/-- A page that is generated. -/
def plainPage : Page :=
  { name := "plain", root := { component := "Text" } }

/-- A page that is not generated, but would have its view in `StrayView.kt`. -/
def strayPage : Page :=
  { name := "stray", root := { component := "Image" } }

theorem strayPage_not_repeats : ¬Repeats [plainPage, strayPage] 1 strayPage := by
  rintro ⟨j, hj, other, hother, heq⟩
  obtain rfl : j = 0 := by omega
  obtain rfl : plainPage = other := by simpa using hother
  exact absurd heq (by decide +kernel)

/-- The page that is not generated is kept apart from the one before it. -/
theorem strayPage_isolated :
    ∃ report,
      (generateBatch (m := DiskM) [plainPage, strayPage] "StrayView.kt/.." .compose {}
        false {}).1[1]? = some report ∧
      strayPage.IsolatedIn "StrayView.kt/.." .compose {} {}
        (generateBatch (m := DiskM) [plainPage, strayPage] "StrayView.kt/.." .compose {} false {}).2
        report.outcome := by
  have hreport : (generateBatch (m := DiskM) [plainPage, strayPage] "StrayView.kt/.." .compose {}
      false {}).1[1]?.isSome = true := by decide +kernel
  obtain ⟨report, hreport⟩ := Option.isSome_iff_exists.mp hreport
  obtain ⟨-, hpages⟩ :=
    generateBatch_isolated [plainPage, strayPage] "StrayView.kt/.." .compose {} {}
  exact ⟨report, hreport, (hpages 1 strayPage report rfl hreport).2.2 strayPage_not_repeats⟩

/-- Without the exception for pages that do not render, their files are not as
if there were no other pages: here the output directory is reached through a
directory that is called like the view of such a page, and another page makes it. -/
theorem strayPage_not_isolated :
    ¬∀ (pages : List Page) (output : String) (registry : Registry) (settings : Settings)
      (start : Disk) (i : Nat) (page : Page), pages[i]? = some page → ¬Repeats pages i page →
      ((generateBatch (m := DiskM) pages output registry settings false start).2.findEntry
          (Path.join output (Kotlin.viewFile page.name))).toOption
        = ((generate (m := DiskM) page output registry settings start).2.findEntry
            (Path.join output (Kotlin.viewFile page.name))).toOption := by
  intro h
  have hfound := h [plainPage, strayPage] "StrayView.kt/.." .compose {} {} 1 strayPage rfl
    strayPage_not_repeats
  -- A directory on one side, nothing on the other.
  have hkind := congrArg (Option.map fun found => found.2.kind) hfound
  exact absurd hkind (by decide +kernel)

end Pagewright
