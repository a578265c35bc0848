import ScannedPage.Proofs.Page.Edits

/-!
# The composition of a page

A page in colour or gray is its base, and nothing else is looked at. The other two modes compose it from parts that
must have the size of the base: a binarization, and for a mixed page its layers. The parts have roles, and they are
checked in the order of `OutputMode.roles`. What is given serves the mode (`Serves`), or there is a fault to blame
(`Blames`), and no third case is left (`exists_blames_or_serves`). So both the faults and the pages of a
composition are read off these two (`compose_eq_error_iff`, `compose_eq_ok_iff`).

What a mixed page shows is a property of the page (`ShowsLayers`), and one page has it (`ShowsLayers.unique`).
-/

namespace ScannedPage

/-- The layers of a page with their sides, by their roles and in the order in which they are checked. -/
def Layers.roles (l : Layers) : List (String × (Nat × Nat)) :=
  ("auto layer mask", l.auto.size.sides) :: ("picture zones mask", l.pictures.size.sides) ::
    l.foreground.toList.map fun m => ("foreground mask", m.size.sides)

/-- What a mode composes a page from, apart from the base. -/
def OutputMode.roles (mode : OutputMode) (b : Raster) (l : Layers) : List (String × (Nat × Nat)) :=
  ("binarized image", b.size.sides) :: if mode = .mixed then l.roles else []

/-- Some layer keeps the source at a position. -/
def Layers.Keeps (l : Layers) (p : Nat × Nat) : Prop :=
  l.auto.Selects p ∨ l.pictures.Selects p ∨ ∃ m ∈ l.foreground, m.Selects p

/-- A page shows the base where a layer keeps it, and elsewhere pure black or white as a binarization says. It has
the format of the base, or is gray if that is bilevel. -/
structure ShowsLayers (base b : Raster) (l : Layers) (page : Raster) : Prop where
  format_eq : page.format = base.format.promoted
  size_eq : page.size = base.size
  resolution_eq : page.resolution = base.resolution
  kept : ∀ p : Nat × Nat, base.size.Contains p.1 p.2 → l.Keeps p → page.word p.1 p.2 = base.promote.word p.1 p.2
  black : ∀ p : Nat × Nat, base.size.Contains p.1 p.2 → ¬ l.Keeps p → b.IsBlack p →
    page.word p.1 p.2 = page.format.blackWord
  white : ∀ p : Nat × Nat, base.size.Contains p.1 p.2 → ¬ l.Keeps p → ¬ b.IsBlack p →
    page.word p.1 p.2 = page.format.whiteWord

/-- The fault that a composition ends with: no binarization, the first part whose sides are not those of the base,
or a binarization that is not bilevel. The format is looked at as soon as the size of the binarization is right. -/
inductive Blames (base : Raster) (l : Layers) (mode : OutputMode) : Option Raster → PageError → Prop
  | missing : Blames base l mode none (.image (.invalidParameter (mode.tag ++ " output requires a binarization")))
  | size {b : Raster} {role : String} {actual : Nat × Nat}
      (hfirst : (mode.roles b l).find? (·.2 ≠ base.size.sides) = some (role, actual))
      (hformat : b.size = base.size → b.format = .bit1) :
      Blames base l mode (some b) (.dimensionMismatch role base.size.sides actual)
  | format {b : Raster} (hsize : b.size = base.size) (hformat : b.format ≠ .bit1) :
      Blames base l mode (some b) (.image (.unsupportedFormat "1-bit"))

/-- A binarization and layers that a mode can compose a page from. -/
structure Serves (base b : Raster) (l : Layers) (mode : OutputMode) : Prop where
  size_eq : b.size = base.size
  format_eq : b.format = .bit1
  sized : mode = .mixed → l.Sized base.size

section Checks

variable {base b : Raster} {bilevel : Option Raster} {l : Layers} {mode : OutputMode} {fault fault' : PageError}

/-- Layers whose sides are all those of a size have this size. -/
theorem Layers.sized_of_roles {s : Size} (h : ∀ part ∈ l.roles, part.2 = s.sides) : l.Sized s where
  auto := Size.eq_of_sides_eq (h _ List.mem_cons_self)
  pictures := Size.eq_of_sides_eq (h _ (List.mem_cons_of_mem _ List.mem_cons_self))
  foreground m hm := by
    have hrole : ("foreground mask", m.size.sides) ∈ l.roles :=
      List.mem_cons_of_mem _ (List.mem_cons_of_mem _ (List.mem_map.mpr ⟨m, Option.mem_toList.mpr hm, rfl⟩))
    exact Size.eq_of_sides_eq (h _ hrole)

/-- A check of the layers names the first of other sides. -/
theorem Layers.checkSides_eq (l : Layers) (expected : Nat × Nat) : l.checkSides expected =
    match l.roles.find? (·.2 ≠ expected) with
    | none => .ok ()
    | some (role, actual) => .error (.dimensionMismatch role expected actual) := by
  obtain ⟨auto, pictures, foreground⟩ := l
  simp only [checkSides, checkLayer, roles, List.find?_cons, bind, Except.bind]
  by_cases hauto : auto.size.sides = expected
  · by_cases hpictures : pictures.size.sides = expected
    · cases foreground with
      | none => simp [hauto, hpictures, pure, Except.pure]
      | some m => by_cases hm : m.size.sides = expected <;> simp [hauto, hpictures, hm]
    · simp [hauto, hpictures]
  · simp [hauto]

/-- A bilevel binarization of the size of the base is taken. -/
theorem requireBilevel_of_fits (hsize : b.size = base.size) (hformat : b.format = .bit1) (mode : OutputMode) :
    requireBilevel base.size.sides (some b) mode = .ok b := by
  rw [requireBilevel, if_neg (not_not.mpr (congrArg Size.sides hsize)), Raster.requireFormat_eq_ok hformat]
  rfl

/-- A binarization in another format is refused. -/
theorem requireBilevel_of_format_ne (hsize : b.size = base.size) (hformat : b.format ≠ .bit1) (mode : OutputMode) :
    requireBilevel base.size.sides (some b) mode = .error (.image (.unsupportedFormat "1-bit")) := by
  have hrefused : b.requireFormat .bit1 = .error (.unsupportedFormat "1-bit") := if_neg hformat
  rw [requireBilevel, if_neg (not_not.mpr (congrArg Size.sides hsize)), hrefused]
  rfl

/-- A binarization of another size is refused before its format is looked at. -/
theorem requireBilevel_of_size_ne (hsize : b.size ≠ base.size) (mode : OutputMode) :
    requireBilevel base.size.sides (some b) mode =
      .error (.dimensionMismatch "binarized image" base.size.sides b.size.sides) :=
  if_pos fun hsides => hsize (Size.eq_of_sides_eq hsides)

/-- A mode that needs a binarization is refused with it. -/
theorem compose_of_refused (hmode : mode.binarizes = true)
    (h : requireBilevel base.size.sides bilevel mode = .error fault) :
    compose base bilevel l mode = .error fault := by
  cases mode with
  | colorOrGrayscale => exact absurd hmode (by decide)
  | blackAndWhite => exact h
  | mixed =>
    rw [compose, h]
    rfl

/-- With a binarization at hand, a mixed page takes its layers next. -/
theorem compose_mixed_eq (hsize : b.size = base.size) (hformat : b.format = .bit1) :
    compose base (some b) l .mixed =
      match l.roles.find? (·.2 ≠ base.size.sides) with
      | none => .ok (mixLayers base.promote b l)
      | some (role, actual) => .error (.dimensionMismatch role base.size.sides actual) := by
  rw [compose, requireBilevel_of_fits hsize hformat, l.checkSides_eq]
  cases l.roles.find? (·.2 ≠ base.size.sides) <;> rfl

/-- What serves a mode is composed. -/
theorem Serves.compose_eq (h : Serves base b l mode) (hmode : mode.binarizes = true) :
    compose base (some b) l mode = .ok (if mode = .mixed then mixLayers base.promote b l else b) := by
  cases mode with
  | colorOrGrayscale => exact absurd hmode (by decide)
  | blackAndWhite => exact requireBilevel_of_fits h.size_eq h.format_eq .blackAndWhite
  | mixed =>
    rw [compose, requireBilevel_of_fits h.size_eq h.format_eq, (h.sized rfl).checkSides_eq_ok]
    rfl

/-- What is to blame for a fault ends a composition with it. -/
theorem Blames.compose_eq (h : Blames base l mode bilevel fault) (hmode : mode.binarizes = true) :
    compose base bilevel l mode = .error fault := by
  cases h with
  | missing => exact compose_of_refused hmode rfl
  | format hsize hformat => exact compose_of_refused hmode (requireBilevel_of_format_ne hsize hformat mode)
  | @size b role actual hfirst hformat =>
    rw [OutputMode.roles, List.find?_cons] at hfirst
    by_cases hsize : b.size = base.size
    · rw [hsize, decide_eq_false (not_not.mpr rfl)] at hfirst
      by_cases hmixed : mode = .mixed
      · subst hmixed
        rw [compose_mixed_eq hsize (hformat hsize), show l.roles.find? _ = some (role, actual) from hfirst]
      · rw [if_neg hmixed] at hfirst
        exact absurd hfirst (by simp)
    · have hsides : b.size.sides ≠ base.size.sides := fun hsides => hsize (Size.eq_of_sides_eq hsides)
      rw [decide_eq_true hsides] at hfirst
      obtain ⟨rfl, rfl⟩ := Prod.mk.inj (Option.some.inj hfirst)
      exact compose_of_refused hmode (requireBilevel_of_size_ne hsize mode)

/-- A composition is served, or something is to blame. -/
theorem exists_blames_or_serves (base : Raster) (bilevel : Option Raster) (l : Layers) (mode : OutputMode) :
    (∃ fault, Blames base l mode bilevel fault) ∨ ∃ b, bilevel = some b ∧ Serves base b l mode := by
  cases bilevel with
  | none => exact Or.inl ⟨_, .missing⟩
  | some b =>
    by_cases hformat : b.size = base.size → b.format = .bit1
    · cases hfirst : (mode.roles b l).find? (·.2 ≠ base.size.sides) with
      | some part => exact Or.inl ⟨_, .size hfirst hformat⟩
      | none =>
        have hall (part : String × (Nat × Nat)) (hpart : part ∈ mode.roles b l) : part.2 = base.size.sides :=
          not_not.mp fun hne => List.find?_eq_none.mp hfirst part hpart (decide_eq_true hne)
        have hsize : b.size = base.size :=
          Size.eq_of_sides_eq (hall ("binarized image", b.size.sides) List.mem_cons_self)
        refine Or.inr ⟨b, rfl, hsize, hformat hsize, fun hmixed => Layers.sized_of_roles fun part hpart =>
          hall part ?_⟩
        rw [OutputMode.roles, if_pos hmixed]
        exact List.mem_cons_of_mem _ hpart
    · obtain ⟨hsize, hformat⟩ := Classical.not_imp.mp hformat
      exact Or.inl ⟨_, .format hsize hformat⟩

/-- A composition ends with a fault exactly if its mode binarizes and the fault is the one to blame. -/
theorem compose_eq_error_iff : compose base bilevel l mode = .error fault ↔
    mode.binarizes = true ∧ Blames base l mode bilevel fault := by
  refine ⟨fun h => ?_, fun ⟨hmode, h⟩ => h.compose_eq hmode⟩
  have hmode : mode.binarizes = true := by
    cases mode with
    | colorOrGrayscale => exact absurd h nofun
    | blackAndWhite => rfl
    | mixed => rfl
  rcases exists_blames_or_serves base bilevel l mode with ⟨fault', hblames⟩ | ⟨b, rfl, hserves⟩
  · rw [hblames.compose_eq hmode] at h
    exact ⟨hmode, Except.error.inj h ▸ hblames⟩
  · rw [hserves.compose_eq hmode] at h
    exact absurd h nofun

/-- A page comes out exactly if something serves the mode, and it is what is composed from that. -/
theorem compose_eq_ok_iff (hmode : mode.binarizes = true) {page : Raster} :
    compose base bilevel l mode = .ok page ↔
    ∃ b, bilevel = some b ∧ Serves base b l mode ∧
      (if mode = .mixed then mixLayers base.promote b l else b) = page := by
  constructor
  · intro h
    rcases exists_blames_or_serves base bilevel l mode with ⟨fault, hblames⟩ | ⟨b, rfl, hserves⟩
    · rw [hblames.compose_eq hmode] at h
      exact absurd h nofun
    · rw [hserves.compose_eq hmode] at h
      exact ⟨b, rfl, hserves, Except.ok.inj h⟩
  · rintro ⟨b, rfl, hserves, rfl⟩
    exact hserves.compose_eq hmode

/-- A composition ends with a fault exactly if its mode binarizes and no binarization serves it. -/
theorem exists_compose_eq_error_iff : (∃ fault, compose base bilevel l mode = .error fault) ↔
    mode.binarizes = true ∧ ∀ b, bilevel = some b → ¬ Serves base b l mode := by
  constructor
  · rintro ⟨fault, h⟩
    refine ⟨(compose_eq_error_iff.mp h).1, fun b hb hserves => ?_⟩
    rw [hb, hserves.compose_eq (compose_eq_error_iff.mp h).1] at h
    exact absurd h nofun
  · rintro ⟨hmode, hnone⟩
    rcases exists_blames_or_serves base bilevel l mode with ⟨fault, hblames⟩ | ⟨b, hb, hserves⟩
    · exact ⟨fault, hblames.compose_eq hmode⟩
    · exact absurd hserves (hnone b hb)

/-- What does not serve a mode has another size, another format, or a layer of another size where layers count. -/
theorem not_serves_iff : ¬ Serves base b l mode ↔
    b.size ≠ base.size ∨ b.format ≠ .bit1 ∨ mode = .mixed ∧ ¬ l.Sized base.size := by
  constructor
  · intro h
    by_contra hnone
    push Not at hnone
    exact h ⟨hnone.1, hnone.2.1, hnone.2.2⟩
  · rintro (hsize | hformat | ⟨hmode, hsized⟩) h
    · exact hsize h.size_eq
    · exact hformat h.format_eq
    · exact hsized (h.sized hmode)

end Checks

section Layers

variable {base b : Raster} {l : Layers}

/-- The base image differs from a page in its format only, as long as nothing is read. -/
theorem Raster.promote_keeps (r : Raster) :
    r.promote.format = r.format.promoted ∧ r.promote.size = r.size ∧ r.promote.resolution = r.resolution := by
  rw [promote, PixelFormat.promoted]
  split
  · refine ⟨format_toGray r, size_toGray r, ?_⟩
    rw [toGray]
    split <;> rfl
  · exact ⟨rfl, rfl, rfl⟩

/-- The composition asks whether a layer keeps the source. -/
theorem Layers.selects_iff {p : Nat × Nat} : l.selects p.1 p.2 = true ↔ l.Keeps p := by
  obtain ⟨auto, pictures, foreground⟩ := l
  rw [selects, Bool.or_eq_true, Bool.or_eq_true, or_assoc]
  cases foreground <;> simp [Keeps, Mask.Selects]

/-- A mixed page shows what its layers keep, and the binarization elsewhere. -/
theorem showsLayers_mixLayers (base b : Raster) (l : Layers) :
    ShowsLayers base b l (mixLayers base.promote b l) := by
  obtain ⟨hformat, hsize, hresolution⟩ := base.promote_keeps
  have hword {p : Nat × Nat} (hp : base.size.Contains p.1 p.2) : (mixLayers base.promote b l).word p.1 p.2 =
      if l.selects p.1 p.2 then base.promote.word p.1 p.2
      else if b.word p.1 p.2 != 0 then base.promote.format.blackWord else base.promote.format.whiteWord :=
    word_mixLayers (hsize ▸ hp)
  refine ⟨hformat, hsize, hresolution, fun p hp hkeeps => ?_, fun p hp hkeeps hblack => ?_,
    fun p hp hkeeps hblack => ?_⟩
  · rw [hword hp, if_pos (Layers.selects_iff.mpr hkeeps)]
  · rw [hword hp, if_neg (mt Layers.selects_iff.mp hkeeps), if_pos (bne_iff_ne.mpr hblack)]
    rfl
  · rw [hword hp, if_neg (mt Layers.selects_iff.mp hkeeps), if_neg (mt bne_iff_ne.mp hblack)]
    rfl

/-- Only one page shows what some layers keep, and a binarization elsewhere. -/
theorem ShowsLayers.unique {page page' : Raster} (h : ShowsLayers base b l page)
    (h' : ShowsLayers base b l page') :
    page = page' := by
  have hformat := h.format_eq.trans h'.format_eq.symm
  refine Raster.ext_word hformat (h.resolution_eq.trans h'.resolution_eq.symm) (h.size_eq.trans h'.size_eq.symm)
    fun x y hxy => ?_
  rw [h.size_eq] at hxy
  by_cases hkeeps : l.Keeps (x, y)
  · exact (h.kept (x, y) hxy hkeeps).trans (h'.kept (x, y) hxy hkeeps).symm
  · by_cases hblack : b.IsBlack (x, y)
    · rw [h.black (x, y) hxy hkeeps hblack, h'.black (x, y) hxy hkeeps hblack, hformat]
    · rw [h.white (x, y) hxy hkeeps hblack, h'.white (x, y) hxy hkeeps hblack, hformat]

end Layers

/-- A composition follows its rule of layers. In colour or gray the base is delivered, whatever else is given.
Black and white delivers the binarization whatever the masks, and a mixed page shows its layers; both need a
bilevel binarization of the size of the base, and a mixed page needs every layer in this size, too. Where something
is amiss, the first part to blame is named, and nothing else is a fault. -/
theorem compose_by_layers (base : Raster) (bilevel : Option Raster) (l : Layers) :
    compose base bilevel l .colorOrGrayscale = .ok base ∧
    (∀ page, compose base bilevel l .blackAndWhite = .ok page ↔
      bilevel = some page ∧ page.size = base.size ∧ page.format = .bit1) ∧
    (∀ page, compose base bilevel l .mixed = .ok page ↔
      ∃ b, bilevel = some b ∧ b.size = base.size ∧ b.format = .bit1 ∧ l.Sized base.size ∧
        ShowsLayers base b l page) ∧
    ∀ mode, (∀ fault, compose base bilevel l mode = .error fault ↔
        mode.binarizes = true ∧ Blames base l mode bilevel fault) ∧
      ((∃ fault, compose base bilevel l mode = .error fault) ↔ mode.binarizes = true ∧ ∀ b, bilevel = some b →
        b.size ≠ base.size ∨ b.format ≠ .bit1 ∨ mode = .mixed ∧ ¬ l.Sized base.size) := by
  refine ⟨rfl, fun page => ?_, fun page => ?_, fun mode => ⟨fun fault => compose_eq_error_iff, ?_⟩⟩
  · rw [compose_eq_ok_iff rfl]
    constructor
    · rintro ⟨b, hb, hserves, rfl⟩
      exact ⟨hb, hserves.size_eq, hserves.format_eq⟩
    · rintro ⟨hpage, hsize, hformat⟩
      exact ⟨page, hpage, ⟨hsize, hformat, nofun⟩, rfl⟩
  · rw [compose_eq_ok_iff rfl]
    constructor
    · rintro ⟨b, hb, hserves, rfl⟩
      exact ⟨b, hb, hserves.size_eq, hserves.format_eq, hserves.sized rfl, showsLayers_mixLayers base b l⟩
    · rintro ⟨b, hb, hsize, hformat, hsized, hshows⟩
      exact ⟨b, hb, ⟨hsize, hformat, fun _ => hsized⟩, (showsLayers_mixLayers base b l).unique hshows⟩
  · rw [exists_compose_eq_error_iff]
    exact and_congr_right fun _ => forall₂_congr fun b _ => not_serves_iff

end ScannedPage
