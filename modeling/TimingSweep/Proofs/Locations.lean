import Mathlib.Data.List.Induction
import TimingSweep.Files.Place

/-!
# Locations and paths

A walk through a tree depends on little of it: at which locations there are folders and at which
there is anything. `Tree.advance` takes a step by these facts alone, `Tree.trace` step after step,
and `Tree.locate` a whole path.

* `Keeps.locate_of_locate`: a path goes on leading where it led while nothing is taken away;
* `Place.exists_of_standsIn`: a place is reached from the one above it by entering its last name;
* `map_location_walk`: a walk goes where its trace goes;
* `Tree.file?_eq_locate`: the contents at a path are those at its location.
-/

namespace TimingSweep

namespace Tree

variable {α : Type}

/-- What stands at a location. -/
def at? : Tree α → Location → Option (Tree α)
  | t, [] => some t
  | t, name :: rest => (t.child? name).bind (at? · rest)

/-- There is a folder at a location. -/
def folderAt (t : Tree α) (l : Location) : Bool := (t.at? l).any isFolder

/-- The contents of the file at a location. -/
def contentsAt? (t : Tree α) (l : Location) : Option α := (t.at? l).bind contents?

theorem at?_append (t : Tree α) (l m : Location) :
    t.at? (l ++ m) = (t.at? l).bind (at? · m) := by
  induction l generalizing t with
  | nil => rfl
  | cons name rest ih =>
    simp only [List.cons_append, at?, ih, Option.bind_assoc]

theorem at?_concat (t : Tree α) (l : Location) (name : String) :
    t.at? (l ++ [name]) = (t.at? l).bind (child? · name) := by
  simp [at?_append, at?]

theorem isSome_at? (t : Tree α) (l : Location) :
    (t.at? l).isSome = (t.folderAt l || (t.contentsAt? l).isSome) := by
  rw [folderAt, contentsAt?]
  cases t.at? l with
  | none => rfl
  | some entry => cases entry <;> rfl

/-- Where a step leads from a location. -/
def advance (t : Tree α) (l : Location) (step : String) : Except IoFailure Location :=
  if !t.folderAt l then .error (.system .notDirectory)
  else if step = "" || step = "." then .ok l
  else if step = ".." then .ok l.dropLast
  else if Place.maxNameSize < step.utf8ByteSize then .error (.system .nameTooLong)
  else if (t.at? (l ++ [step])).isSome then .ok (l ++ [step])
  else .error (.system .noEntry)

/-- Where steps lead from a location, one after the other. -/
def trace (t : Tree α) (l : Location) (steps : List String) : Except IoFailure Location :=
  steps.foldlM t.advance l

theorem trace_cons (t : Tree α) (l : Location) (step : String) (rest : List String) :
    t.trace l (step :: rest) = t.advance l step >>= fun m => t.trace m rest :=
  List.foldlM_cons

theorem trace_append (t : Tree α) (l : Location) (first rest : List String) :
    t.trace l (first ++ rest) = t.trace l first >>= fun m => t.trace m rest :=
  List.foldlM_append

theorem trace_cons_eq_ok_iff {t : Tree α} {l n : Location} {step : String} {rest : List String} :
    t.trace l (step :: rest) = .ok n ↔
      ∃ m, t.advance l step = .ok m ∧ t.trace m rest = .ok n := by
  rw [trace_cons]
  cases t.advance l step <;> simp [bind, Except.bind]

/-- What a step needs to lead somewhere. -/
theorem advance_eq_ok_iff {t : Tree α} {l m : Location} {step : String} :
    t.advance l step = .ok m ↔ t.folderAt l = true ∧
      (step ∈ ["", "."] ∧ m = l ∨ step = ".." ∧ m = l.dropLast ∨
        step ∉ ["", ".", ".."] ∧ step.utf8ByteSize ≤ Place.maxNameSize ∧
          (t.at? (l ++ [step])).isSome = true ∧ m = l ++ [step]) := by
  unfold advance
  constructor
  · intro led
    split at led
    · cases led
    · rename_i folder
      refine ⟨by simpa using folder, ?_⟩
      split at led
      · rename_i stays
        exact Or.inl ⟨by simpa using stays, (Except.ok.inj led).symm⟩
      · rename_i moves
        split at led
        · rename_i up
          exact Or.inr (Or.inl ⟨up, (Except.ok.inj led).symm⟩)
        · rename_i down
          split at led
          · cases led
          · rename_i short
            split at led
            · rename_i found
              have ordinary : step ∉ ["", ".", ".."] := by simpa [down] using moves
              exact Or.inr (Or.inr ⟨ordinary, Nat.not_lt.mp short, found,
                (Except.ok.inj led).symm⟩)
            · cases led
  · rintro ⟨folder, ⟨stays, rfl⟩ | ⟨rfl, rfl⟩ | ⟨ordinary, short, found, rfl⟩⟩
    · rw [folder, if_neg (by decide), if_pos (by simpa using stays)]
    · rw [folder, if_neg (by decide), if_neg (by decide), if_pos rfl]
    · simp only [List.mem_cons, List.not_mem_nil, or_false, not_or] at ordinary
      rw [folder, if_neg (by decide), if_neg (by simp [ordinary]), if_neg ordinary.2.2,
        if_neg (Nat.not_lt.mpr short), if_pos found]

/-- Where the steps lead that begin as a route does. -/
def locate (t : Tree α) (home : Location) (r : Route) (steps : List String) :
    Except IoFailure Location :=
  if r.absolute then t.trace [] steps
  else if (t.at? home).isSome then t.trace home steps
  else .error (.system .noEntry)

theorem locate_append {r : Route} (t : Tree α) (home : Location) (first rest : List String) :
    t.locate home r (first ++ rest) = t.locate home r first >>= fun m => t.trace m rest := by
  unfold locate
  split
  · exact t.trace_append [] first rest
  · split
    · exact t.trace_append home first rest
    · rfl

/-- The other tree has folders where the one has, and something wherever there was something. -/
structure Keeps (t t' : Tree α) : Prop where
  folderAt_of : ∀ l, t.folderAt l = true → t'.folderAt l = true
  isSome_of : ∀ l, (t.at? l).isSome = true → (t'.at? l).isSome = true

namespace Keeps

variable {t t' : Tree α} {home l m : Location}

/-- Where a step led it leads. -/
theorem advance_of_advance (keeps : t.Keeps t') {step : String} (led : t.advance l step = .ok m) :
    t'.advance l step = .ok m := by
  obtain ⟨folder, moves⟩ := advance_eq_ok_iff.mp led
  refine advance_eq_ok_iff.mpr ⟨keeps.folderAt_of l folder, ?_⟩
  rcases moves with stays | up | ⟨ordinary, short, found, same⟩
  · exact Or.inl stays
  · exact Or.inr (Or.inl up)
  · exact Or.inr (Or.inr ⟨ordinary, short, keeps.isSome_of _ found, same⟩)

theorem trace_of_trace (keeps : t.Keeps t') {steps : List String} (led : t.trace l steps = .ok m) :
    t'.trace l steps = .ok m := by
  induction steps generalizing l with
  | nil => exact led
  | cons step rest ih =>
    obtain ⟨k, first, later⟩ := trace_cons_eq_ok_iff.mp led
    exact trace_cons_eq_ok_iff.mpr ⟨k, keeps.advance_of_advance first, ih later⟩

/-- A path that led somewhere leads to the same location. -/
theorem locate_of_locate (keeps : t.Keeps t') {r : Route} {steps : List String}
    (led : t.locate home r steps = .ok m) : t'.locate home r steps = .ok m := by
  unfold locate at led ⊢
  split at led
  · rename_i absolute
    rw [if_pos absolute]
    exact keeps.trace_of_trace led
  · rename_i relative
    split at led
    · rename_i known
      rw [if_neg relative, if_pos (keeps.isSome_of home known)]
      exact keeps.trace_of_trace led
    · cases led

end Keeps

end Tree

namespace Place

variable {α : Type}

/-- The names that lead from the top to a place. -/
def location (p : Place α) : Location := (p.above.map (·.1)).reverse

/-- The place is where its names lead in the tree. -/
def StandsIn (t : Tree α) (p : Place α) : Prop := t.place? p.location = some p

theorem place?_concat (t : Tree α) (l : Location) (name : String) :
    t.place? (l ++ [name]) = (t.place? l).bind (enter? · name) := by
  rw [Tree.place?, List.foldlM_append]
  exact congrArg _ (funext fun p => bind_pure (p.enter? name))

theorem location_of_enter? {p q : Place α} {name : String} (h : p.enter? name = some q) :
    q.location = p.location ++ [name] := by
  obtain ⟨entry, -, rfl⟩ := Option.map_eq_some_iff.mp h
  simp [location, down]

theorem location_of_place? {t : Tree α} {l : Location} {p : Place α} (h : t.place? l = some p) :
    p.location = l := by
  induction l using List.reverseRecOn generalizing p with
  | nil =>
    cases h
    rfl
  | append_singleton l name ih =>
    rw [place?_concat] at h
    obtain ⟨q, found, entered⟩ := Option.bind_eq_some_iff.mp h
    rw [location_of_enter? entered, ih found]

theorem standsIn_of_place? {t : Tree α} {l : Location} {p : Place α} (h : t.place? l = some p) :
    p.StandsIn t := by
  rw [StandsIn, location_of_place? h]
  exact h

variable {t : Tree α} {p q : Place α}

theorem standsIn_top (t : Tree α) : (top t).StandsIn t := rfl

theorem standsIn_of_enter? (stands : p.StandsIn t) {name : String}
    (h : p.enter? name = some q) : q.StandsIn t := by
  rw [StandsIn, location_of_enter? h, place?_concat, stands]
  exact h

/-- Below the top, a place is an entry of the folder that stands above it. -/
theorem exists_of_standsIn (stands : p.StandsIn t) {name : String} {folder : Tree α}
    {above : List (String × Tree α)} (split : p.above = (name, folder) :: above) :
    (Place.mk folder above).StandsIn t ∧ (Place.mk folder above).enter? name = some p := by
  have location : p.location = (above.map (·.1)).reverse ++ [name] := by
    simp [Place.location, split]
  rw [StandsIn, location, place?_concat] at stands
  obtain ⟨q, found, entered⟩ := Option.bind_eq_some_iff.mp stands
  have same : q = ⟨folder, above⟩ := by
    obtain ⟨entry, -, rfl⟩ := Option.map_eq_some_iff.mp entered
    obtain ⟨⟨-, rfl⟩, rfl⟩ : (name = name ∧ q.node = folder) ∧ q.above = above := by
      simpa [down] using split
    rfl
  subst same
  exact ⟨standsIn_of_place? found, entered⟩

theorem standsIn_up (stands : p.StandsIn t) : p.up.StandsIn t ∧
    p.up.location = p.location.dropLast := by
  cases split : p.above with
  | nil =>
    have same : p.up = p := by
      unfold up
      rw [split]
    rw [same]
    exact ⟨stands, by simp [location, split]⟩
  | cons entry above =>
    obtain ⟨name, folder⟩ := entry
    obtain ⟨folder_stands, entered⟩ := exists_of_standsIn stands split
    obtain ⟨node, child, rfl⟩ := Option.map_eq_some_iff.mp entered
    have same : ((Place.mk folder above).down name node).up = ⟨folder, above⟩ := by
      simp only [up, down, Tree.setChild_of_child? child]
    rw [same]
    exact ⟨folder_stands, by simp [location, down]⟩

theorem at?_location (stands : p.StandsIn t) : t.at? p.location = some p.node := by
  obtain ⟨node, above⟩ := p
  induction above generalizing node with
  | nil =>
    cases stands
    rfl
  | cons entry above ih =>
    obtain ⟨name, folder⟩ := entry
    obtain ⟨folder_stands, entered⟩ := exists_of_standsIn stands rfl
    obtain ⟨child, found, same⟩ := Option.map_eq_some_iff.mp entered
    cases same
    rw [location_of_enter? entered, Tree.at?_concat, ih folder folder_stands]
    exact found

theorem folderAt_location (stands : p.StandsIn t) : t.folderAt p.location = p.node.isFolder := by
  rw [Tree.folderAt, at?_location stands, Option.any_some]

theorem at?_below (stands : p.StandsIn t) (name : String) :
    t.at? (p.location ++ [name]) = p.node.child? name := by
  rw [Tree.at?_concat, at?_location stands, Option.bind_some]

/-- A walk goes where its trace goes, and fails as it does. -/
theorem map_location_walk (stands : p.StandsIn t) (steps : List String) :
    (p.walk steps).map location = t.trace p.location steps := by
  fun_induction walk p steps with
  | case1 p => rfl
  | case2 p step rest file =>
    rw [Tree.trace_cons, Tree.advance, folderAt_location stands, if_pos file]
    rfl
  | case3 p step rest folder stays ih =>
    rw [Tree.trace_cons, Tree.advance, folderAt_location stands, if_neg folder, if_pos stays]
    exact ih stands
  | case4 p rest folder stays ih =>
    obtain ⟨up_stands, up_location⟩ := standsIn_up stands
    rw [Tree.trace_cons, Tree.advance, folderAt_location stands, if_neg folder, if_neg stays,
      if_pos rfl, ← up_location]
    exact ih up_stands
  | case5 p step rest folder stays up long =>
    rw [Tree.trace_cons, Tree.advance, folderAt_location stands, if_neg folder, if_neg stays,
      if_neg up, if_pos long]
    rfl
  | case6 p step rest folder stays up short absent =>
    have missing : p.node.child? step = none := by simpa [enter?] using absent
    rw [Tree.trace_cons, Tree.advance, folderAt_location stands, if_neg folder, if_neg stays,
      if_neg up, if_neg short, at?_below stands, if_neg (by simp [missing])]
    rfl
  | case7 p step rest folder stays up short entry entered ih =>
    have there : (p.node.child? step).isSome = true := by
      obtain ⟨node, found, -⟩ := Option.map_eq_some_iff.mp entered
      rw [found]
      rfl
    rw [Tree.trace_cons, Tree.advance, folderAt_location stands, if_neg folder, if_neg stays,
      if_neg up, if_neg short, at?_below stands, if_pos there, ← location_of_enter? entered]
    exact ih (standsIn_of_enter? stands entered)

theorem standsIn_of_walk (stands : p.StandsIn t) {steps : List String} (h : p.walk steps = .ok q) :
    q.StandsIn t := by
  fun_induction walk p steps with
  | case1 p =>
    cases h
    exact stands
  | case3 p step rest folder stays ih => exact ih stands h
  | case4 p rest folder stays ih => exact ih (standsIn_up stands).1 h
  | case7 p step rest folder stays up short entry entered ih =>
    exact ih (standsIn_of_enter? stands entered) h
  | _ => cases h

end Place

namespace Tree

variable {α : Type} {t : Tree α} {home : Location}

theorem isSome_place? (t : Tree α) (l : Location) : (t.place? l).isSome = (t.at? l).isSome := by
  induction l using List.reverseRecOn with
  | nil => rfl
  | append_singleton l name ih =>
    rw [Place.place?_concat, at?_concat]
    cases found : t.place? l with
    | none =>
      rw [found] at ih
      have absent : t.at? l = none := by simpa using ih.symm
      rw [absent]
      rfl
    | some p =>
      have location := Place.location_of_place? found
      rw [← location, Place.at?_location (Place.standsIn_of_place? found)]
      simp [Place.enter?]

/-- A route is followed to a place that stands in the tree, at the location that it leads to. -/
theorem map_location_follow (t : Tree α) (home : Location) (r : Route) (steps : List String) :
    (t.follow home r steps).map Place.location = t.locate home r steps := by
  unfold follow origin locate
  cases r.absolute with
  | true => exact Place.map_location_walk (Place.standsIn_top t) steps
  | false =>
    have known := isSome_place? t home
    cases found : t.place? home with
    | none =>
      rw [found] at known
      rw [if_neg (by decide), if_neg (by decide), ← known]
      rfl
    | some p =>
      rw [found] at known
      rw [if_neg (by decide), if_neg (by decide), ← known, ← Place.location_of_place? found]
      exact Place.map_location_walk (Place.standsIn_of_place? found) steps

theorem standsIn_of_follow {r : Route} {steps : List String} {p : Place α}
    (h : t.follow home r steps = .ok p) : p.StandsIn t := by
  unfold follow origin at h
  cases absolute : r.absolute with
  | true =>
    rw [absolute, if_pos rfl] at h
    exact Place.standsIn_of_walk (Place.standsIn_top t) h
  | false =>
    rw [absolute, if_neg (by decide)] at h
    cases found : t.place? home with
    | none =>
      rw [found] at h
      cases h
    | some q =>
      rw [found] at h
      exact Place.standsIn_of_walk (Place.standsIn_of_place? found) h

theorem locate_of_follow {r : Route} {steps : List String} {p : Place α}
    (h : t.follow home r steps = .ok p) : t.locate home r steps = .ok p.location := by
  rw [← map_location_follow, h]
  rfl

/-- The contents of the file at a path are what stands at the location of the path. -/
theorem file?_eq_locate (t : Tree α) (home : Location) (path : String) :
    t.file? home path =
      if fault? path = none then
        (t.locate home (.ofPath path) (Route.ofPath path).steps).toOption.bind t.contentsAt?
      else none := by
  unfold file? find
  cases fault? path with
  | some fault => rfl
  | none =>
    rw [if_pos rfl, ← map_location_follow]
    simp only
    cases followed : t.follow home (.ofPath path) (Route.ofPath path).steps with
    | error failure => rfl
    | ok p =>
      show p.node.contents? = (t.at? p.location).bind contents?
      rw [Place.at?_location (standsIn_of_follow followed)]
      rfl

end Tree

end TimingSweep
