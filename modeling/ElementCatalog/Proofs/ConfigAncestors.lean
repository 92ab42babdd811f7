import ElementCatalog.Proofs.LoneConfigs
import Mathlib.Data.List.Chain
import Mathlib.Data.List.Infix

/-!
# Looking up the configuration file — where it is the nearest one

Toward: the configuration file that is found is the nearest one on every disk exactly if the
directories that are looked in are the start with the directories above it.  The route:

* one component leads down by one name at most, so the locations that are looked in pass through
  every depth above the start (`exists_of_passes`), and in whatever order they come, the first of
  them that decides is the nearest one (`firstFound?_eq_of_mem_iff`);
* on the other side, a disk whose only configuration file is at one location tells whether this
  location is looked in (`firstFound?_onlyAt`);
* a start without double dots is left by one name after the other, down to the root if it is
  absolute and to the working directory if it is not (`mem_lookedIn_iff`).
-/

namespace ElementCatalog

open ElementCatalog.Path (component stepPieces headOf heads ofText climbFrom)

namespace ConfigFile

variable {d : Disk}

/-! ## Locations that are looked in -/

/-- A component leads down by one name at most. -/
theorem length_step_le (l : Location) (c : PathComponent) : (l.step c).length ≤ l.length + 1 := by
  cases c with
  | root => exact Nat.zero_le _
  | here => exact Nat.le_succ _
  | name text => exact Nat.le_refl _
  | up =>
      show l.tail.length ≤ l.length + 1
      rw [List.length_tail]
      omega

/-- The locations that are looked in come one after another without a gap. -/
theorem isChain_lookedIn (home : Location) (start : String) :
    (lookedIn home start).IsChain fun l m => l.length ≤ m.length + 1 := by
  have hclimb : ∀ components : List PathComponent,
      ((climbFrom components).map (·.locationFrom home)).IsChain
        fun l m => l.length ≤ m.length + 1 := by
    intro components
    induction components with
    | nil => exact List.isChain_singleton _
    | cons component rest ih =>
        -- The path with the component leads one level below the path without it at most.
        have hdown : ((⟨(component :: rest).reverse⟩ : Path).locationFrom home).length ≤
            ((⟨rest.reverse⟩ : Path).locationFrom home).length + 1 := by
          rw [Path.locationFrom, Path.locationFrom, List.reverse_cons, List.foldl_append]
          exact length_step_le _ component
        have hhead : ((climbFrom rest).map (·.locationFrom home)).head? =
            some ((⟨rest.reverse⟩ : Path).locationFrom home) := by
          cases rest with
          | nil => rfl
          | cons c cs => cases c <;> rfl
        have hcons : (((⟨(component :: rest).reverse⟩ : Path).locationFrom home) ::
            (climbFrom rest).map (·.locationFrom home)).IsChain
              fun l m => l.length ≤ m.length + 1 := by
          refine ih.cons ?_
          intro m hm
          rw [hhead, Option.mem_some_iff] at hm
          rw [← hm]
          exact hdown
        cases component with
        | root => exact List.isChain_singleton _
        | here | up | name => exact hcons
  exact hclimb (ofText start).components.reverse

/-- Before a location that is less deep, every depth from the start on is passed. -/
theorem exists_of_passes {front back : List Location} {m : Location} :
    ∀ {l : Location}, (front ++ m :: back).head? = some l →
      (front ++ m :: back).IsChain (fun l m => l.length ≤ m.length + 1) →
        ∀ depth, m.length < depth → depth ≤ l.length → ∃ x ∈ front, x.length = depth := by
  induction front with
  | nil =>
      intro l hhead _ depth hlow hhigh
      cases hhead
      omega
  | cons first front ih =>
      intro l hhead hchain depth hlow hhigh
      cases hhead
      rcases Nat.eq_or_lt_of_le hhigh with heq | hless
      · exact ⟨first, List.mem_cons_self, heq.symm⟩
      · obtain ⟨next, hnext⟩ : ∃ next, (front ++ m :: back).head? = some next := by
          cases front <;> exact ⟨_, rfl⟩
        rw [List.cons_append, List.isChain_cons] at hchain
        have hdown := hchain.1 next hnext
        obtain ⟨x, hx, hlength⟩ := ih hnext hchain.2 depth hlow (by omega)
        exact ⟨x, List.mem_cons_of_mem _ hx, hlength⟩

/-- Whatever the order of the locations, if they are those above the first one and have no gap, the
    first that decides is the nearest. -/
theorem firstFound?_eq_of_mem_iff {ls : List Location} {l : Location} (hhead : ls.head? = some l)
    (hchain : ls.IsChain fun l m => l.length ≤ m.length + 1) (hall : ∀ m, m ∈ ls ↔ m <:+ l) :
    firstFound? d ls = firstFound? d l.tails := by
  rw [firstFound?, firstFound?]
  congr 1
  cases hfound : ls.findSome? (lookIn? d) with
  | none =>
      refine (List.findSome?_eq_none_iff.mpr ?_).symm
      intro m hm
      exact List.findSome?_eq_none_iff.mp hfound m ((hall m).mpr ((List.mem_tails m l).mp hm))
  | some found =>
      obtain ⟨front, m, back, rfl, hm, hfront⟩ := List.findSome?_eq_some_iff.mp hfound
      -- Everything between the start and the location that decides comes before it.
      have htails : ∀ below, below ++ m <:+ l →
          (below ++ m).tails.findSome? (lookIn? d) = some found := by
        intro below
        induction below with
        | nil =>
            intro _
            cases m <;> simp [hm]
        | cons name below ih =>
            intro hsuffix
            have hdeeper : m.length < (name :: below ++ m).length := by
              rw [List.length_append, List.length_cons]
              omega
            obtain ⟨x, hx, hlength⟩ :=
              exists_of_passes hhead hchain _ hdeeper hsuffix.length_le
            -- There is one location of each depth above the start.
            have hxl : x <:+ l := (hall x).mp (List.mem_append_left _ hx)
            have hsame : x = name :: below ++ m :=
              (List.suffix_of_suffix_length_le hxl hsuffix (by omega)).eq_of_length hlength
            have hnone := hfront x hx
            rw [hsame] at hnone
            rw [List.cons_append, List.tails_cons, List.findSome?_cons_of_isNone]
            · exact ih ((List.suffix_cons name (below ++ m)).trans hsuffix)
            · rw [← List.cons_append, hnone]
              rfl
      obtain ⟨below, hbelow⟩ := (hall m).mp (by simp)
      rw [← hbelow]
      exact (htails below (hbelow ▸ List.suffix_rfl)).symm

/-! ## The directories above the start -/

/-- The directories that are looked in are the start and the directories above it. -/
def LooksUpwards (home : Location) (start : String) : Prop :=
  ∀ l, l ∈ lookedIn home start ↔ l <:+ (ofText start).locationFrom home

/-- The configuration file that is found for a directory is the nearest one: that of the first
    directory that decides, of this directory and those above it. -/
def FindsNearest (d : Disk) (start : String) : Prop :=
  ∀ trail entries, d.follow start = .ok trail → d.here trail = .directory entries →
    (find? d start).map d.location? = (firstFound? d (trail.map Prod.fst).tails).map some

/-- Neither the way to the working directory nor the start has a repository or a configuration file
    for a directory. -/
def StaysOutside (working start : String) : Prop :=
  ∀ piece ∈ stepPieces working ++ stepPieces start, piece ≠ fileName ∧ piece ≠ ".git"

/-- The start is looked in first. -/
theorem head?_lookedIn (home : Location) (start : String) :
    (lookedIn home start).head? = some ((ofText start).locationFrom home) := by
  rw [lookedIn_eq]
  rfl

/-- Looking upwards finds the nearest configuration file. -/
theorem LooksUpwards.findsNearest {start : String} (h : LooksUpwards d.home start) :
    FindsNearest d start := by
  intro trail entries hfollow hhere
  have hleads : d.LeadsInto start trail entries := ⟨(Disk.follow_eq_ok_iff.mp hfollow).2.1, hhere⟩
  rw [find?_eq hleads, hleads.location_eq, firstFound?_eq_of_mem_iff (head?_lookedIn d.home start)
    (isChain_lookedIn d.home start) h]

/-- The names at a location that is looked in are steps of the working directory or the start. -/
theorem mem_names_of_mem_lookedIn {working start n : String} {l : Location}
    (hl : l ∈ lookedIn ((ofText working).locationFrom []) start) (hn : n ∈ l) :
    n ∈ (stepPieces working ++ stepPieces start).filter (· != "..") := by
  obtain ⟨q, hq, rfl⟩ := List.mem_map.mp hl
  rw [List.mem_filter, List.mem_append, bne_iff_ne]
  rcases Path.mem_locationFrom hn with hhome | hname
  · rcases Path.mem_locationFrom hhome with hnil | hname
    · cases hnil
    · have hstep := Path.mem_stepPieces_of_name hname
      exact ⟨Or.inl hstep.1, hstep.2⟩
  · have hstep := Path.mem_stepPieces_of_name (Path.mem_of_mem_climb hq hname)
    exact ⟨Or.inr hstep.1, hstep.2⟩

/-- If the nearest configuration file is found on a disk with only one of them, its directory is
    looked in exactly if it is above the start. -/
theorem mem_lookedIn_iff_suffix {names : List String} {target : Location} {depth : Nat}
    {working start : String} (houtside : ∀ n ∈ names, n ≠ fileName ∧ n ≠ ".git")
    (htarget : ∀ n ∈ target, n ∈ names) (hdepth : target.length ≤ depth) (hstart : start ≠ "")
    {trail : Disk.Trail} {entries : List (String × FileTree)}
    (hleads : (onlyAt names target depth working).LeadsInto start trail entries)
    (h : FindsNearest (onlyAt names target depth working) start) :
    target ∈ lookedIn (onlyAt names target depth working).home start ↔
      target <:+ (ofText start).locationFrom (onlyAt names target depth working).home := by
  have hfollow := Disk.follow_eq_ok_iff.mpr ⟨hstart, hleads.1, Or.inr ⟨entries, hleads.2⟩⟩
  have hsame := (find?_eq hleads).symm.trans (h trail entries hfollow hleads.2)
  rw [firstFound?_onlyAt houtside htarget hdepth, firstFound?_onlyAt houtside htarget hdepth,
    hleads.location_eq] at hsame
  rw [← List.mem_tails]
  constructor
  · intro hl
    rw [if_pos hl] at hsame
    by_contra hnot
    rw [if_neg hnot] at hsame
    cases hsame
  · intro hl
    rw [if_pos hl] at hsame
    by_contra hnot
    rw [if_neg hnot] at hsame
    cases hsame

/-- If the nearest configuration file is found on every disk, every directory above the start is
    looked in, and no other one. -/
theorem looksUpwards_of_findsNearest {working start : String} (hstart : start ≠ "")
    (houtside : StaysOutside working start) (h : ∀ root, FindsNearest ⟨root, working⟩ start) :
    LooksUpwards ((ofText working).locationFrom []) start := by
  intro target
  have hnames : ∀ n ∈ (stepPieces working ++ stepPieces start).filter (· != ".."),
      n ≠ fileName ∧ n ≠ ".git" :=
    fun n hn => houtside n (List.mem_of_mem_filter hn)
  by_cases htarget : ∀ n ∈ target, n ∈ (stepPieces working ++ stepPieces start).filter (· != "..")
  · obtain ⟨trail, entries, hleads⟩ := leadsInto_onlyAt target
      (fun hfile => (hnames _ hfile).1 rfl)
      (fun q hq hup => List.mem_filter.mpr ⟨hq, bne_iff_ne.mpr hup⟩)
      (Nat.le_add_right (stepPieces working ++ stepPieces start).length target.length)
    exact mem_lookedIn_iff_suffix hnames htarget (Nat.le_add_left _ _) hstart hleads (h _)
  · -- A location with other names is neither looked in nor above the start.
    constructor
    · intro hl
      exact absurd (fun n hn => mem_names_of_mem_lookedIn hl hn) htarget
    · intro hsuffix
      have hl := List.mem_of_mem_head? (head?_lookedIn ((ofText working).locationFrom []) start)
      exact absurd (fun n hn => mem_names_of_mem_lookedIn hl (hsuffix.subset hn)) htarget

/-! ## Starts without double dots -/

/-- A start without double dots is left by one name after the other. -/
theorem mem_climb_names {head : List PathComponent} (hhead : head ∈ heads) (home : Location)
    (names : List String) (l : Location) :
    l ∈ (climbFrom (names.map PathComponent.name ++ head)).map (·.locationFrom home) ↔
      ∃ above, above <:+ names ∧ l = above ++ if head = [.root] then [] else home := by
  induction names with
  | nil =>
      rcases Path.eq_of_mem_heads hhead with rfl | rfl | rfl <;>
        simp [climbFrom, Path.locationFrom, Location.step]
  | cons name rest ih =>
      -- The path that is left with this name leads to the location of all the names.
      have hlocation :
          (⟨((name :: rest).map PathComponent.name ++ head).reverse⟩ : Path).locationFrom home =
            name :: rest ++ if head = [.root] then [] else home := by
        rw [Path.locationFrom, List.reverse_append, Path.reverse_of_mem_heads hhead,
          List.foldl_append, Path.foldl_step_head hhead, ← List.map_reverse, Path.foldl_step_names,
          List.reverse_reverse]
      show l ∈ (⟨((name :: rest).map PathComponent.name ++ head).reverse⟩ : Path).locationFrom home ::
        (climbFrom (rest.map PathComponent.name ++ head)).map (·.locationFrom home) ↔ _
      rw [List.mem_cons, ih, hlocation]
      constructor
      · rintro (rfl | ⟨above, habove, rfl⟩)
        · exact ⟨_, List.suffix_rfl, rfl⟩
        · exact ⟨above, habove.trans (List.suffix_cons name rest), rfl⟩
      · rintro ⟨above, habove, rfl⟩
        rcases List.suffix_cons_iff.mp habove with rfl | hrest
        · exact Or.inl rfl
        · exact Or.inr ⟨above, hrest, rfl⟩

/-- Pieces without double dots are names. -/
theorem map_component_of_no_up {pieces : List String} (h : ".." ∉ pieces) :
    pieces.map component = pieces.map PathComponent.name := by
  refine List.map_congr_left fun q hq => if_neg ?_
  rintro rfl
  exact h hq

/-- A start without double dots is looked in with the directories above it exactly if the start is
    absolute or the working directory is the root. -/
theorem looksUpwards_iff_of_no_up (home : Location) {start : String}
    (h : ".." ∉ stepPieces start) :
    LooksUpwards home start ↔ start.startsWith "/" = true ∨ home = [] := by
  have hhead := Path.headOf_mem start
  have hmem : ∀ l, l ∈ lookedIn home start ↔ ∃ above, above <:+ (stepPieces start).reverse ∧
      l = above ++ if headOf start = [.root] then [] else home := by
    intro l
    rw [← mem_climb_names hhead home, lookedIn, Path.climb, Path.ofText_eq,
      map_component_of_no_up h, List.reverse_append, Path.reverse_of_mem_heads hhead,
      List.map_reverse]
  have hstart : (ofText start).locationFrom home =
      (stepPieces start).reverse ++ if headOf start = [.root] then [] else home := by
    rw [Path.ofText_eq, map_component_of_no_up h, Path.locationFrom, List.foldl_append,
      Path.foldl_step_head hhead, Path.foldl_step_names]
  have hbase : (if headOf start = [.root] then [] else home) = ([] : Location) ↔
      start.startsWith "/" = true ∨ home = [] := by
    rw [← Path.headOf_eq_root_iff]
    split
    · rename_i hroot
      exact ⟨fun _ => Or.inl hroot, fun _ => rfl⟩
    · rename_i hroot
      exact ⟨Or.inr, fun hor => hor.resolve_left hroot⟩
  rw [← hbase]
  constructor
  · intro hup
    -- The root is above every start.
    obtain ⟨above, -, hroot⟩ := (hmem []).mp ((hup []).mpr List.nil_suffix)
    exact (List.append_eq_nil_iff.mp hroot.symm).2
  · intro hnil l
    rw [hmem, hstart, hnil, List.append_nil]
    constructor
    · rintro ⟨above, habove, rfl⟩
      rw [List.append_nil]
      exact habove
    · intro hl
      exact ⟨l, hl, (List.append_nil l).symm⟩

/-- **Where the configuration file is looked up**: it is that of the first directory that decides,
    of those that the start and what is left of it without its last components lead to.  If these are
    the start and the directories above it, it is the nearest one on every disk, and if they are not,
    it is not on some disk.  For a start without double dots they are exactly if it is absolute or
    the working directory is the root. -/
theorem config_found_nearest_iff (working start : String) :
    (∀ root trail entries, (⟨root, working⟩ : Disk).follow start = .ok trail →
      (⟨root, working⟩ : Disk).here trail = .directory entries →
        (find? ⟨root, working⟩ start).map (⟨root, working⟩ : Disk).location? =
          (firstFound? ⟨root, working⟩
            (lookedIn ((ofText working).locationFrom []) start)).map some) ∧
    (LooksUpwards ((ofText working).locationFrom []) start →
      ∀ root, FindsNearest ⟨root, working⟩ start) ∧
    (start ≠ "" → StaysOutside working start → (∀ root, FindsNearest ⟨root, working⟩ start) →
      LooksUpwards ((ofText working).locationFrom []) start) ∧
    (".." ∉ stepPieces start → (LooksUpwards ((ofText working).locationFrom []) start ↔
      start.startsWith "/" = true ∨ (ofText working).locationFrom [] = [])) := by
  refine ⟨?_, ?_, looksUpwards_of_findsNearest, looksUpwards_iff_of_no_up _⟩
  · intro root trail entries hfollow hhere
    exact find?_eq ⟨(Disk.follow_eq_ok_iff.mp hfollow).2.1, hhere⟩
  · intro h root
    exact LooksUpwards.findsNearest (d := ⟨root, working⟩) h

end ConfigFile

end ElementCatalog
