import Mathlib.Data.List.Basic
import Mathlib.Data.List.ModifyLast
import Shortcode.Site.Pages

/-!
# Routes of pages

The route of a page is the row of names that lead to it, without the ending of the last one
and without that one altogether if it is `index`. The names can be read off a route again,
since none of them holds a `/`. So two pages have one route only if their rows of names are
the same, or if one is the index page of a folder and the other a page that is called like
the folder and lies next to it.

What a page is found by is a path, to which the folder of all pages may have been written in
any way: with a `/` at its end or without, with parts `.` in it, from the root or empty. The
names behind the folder are compared with its components, so all of these come to the same.

* `Path.components_join`: a name behind a path is one more component.
* `Path.relative?_foldl_join`: names that are joined to a folder are read off from there.
* `Path.parts_join`: a row of names is read off the text it is joined to.
* `PageFile.IsOrdinary.pageRoute?_path`: every page has a route, wherever all pages are.
* `PageFile.IsOrdinary.pageRoute?_foundUnder`: where pages are searched for in a folder that
  begins with `.`, none of them has a route.
* `routes_collide_at_index_iff`: which pages have the same route, and how a page is told by
  its route.
-/

namespace Shortcode

/-! ## Parts of a text -/

namespace Text

theorem splitOn_eq_splitOn (c : Char) (t : Text) : splitOn c t = List.splitOn c t := by
  induction t with
  | nil => rw [splitOn, List.splitOn_nil]
  | cons d t ih =>
    rw [splitOn, List.splitOn_cons_eq_if_modifyHead, ih]
    by_cases h : d = c
    · rw [if_pos h, if_pos (by simpa using h)]
    · rw [if_neg h, if_neg (by simpa using h)]
      obtain ⟨p, ps, hsplit⟩ := List.exists_cons_of_ne_nil (List.splitOn_ne_nil c t)
      rw [hsplit]
      rfl

theorem not_mem_of_mem_splitOn {c : Char} {t part : Text} (h : part ∈ splitOn c t) : c ∉ part := by
  induction t generalizing part with
  | nil =>
    rw [List.mem_singleton.1 h]
    exact List.not_mem_nil
  | cons d t ih =>
    obtain ⟨p, ps, hsplit⟩ : ∃ p ps, splitOn c t = p :: ps :=
      List.exists_cons_of_ne_nil (splitOn_eq_splitOn c t ▸ List.splitOn_ne_nil c t)
    rw [hsplit] at ih
    by_cases hd : d = c
    · rw [splitOn, if_pos hd, hsplit] at h
      rcases List.mem_cons.1 h with rfl | h
      · exact List.not_mem_nil
      · exact ih h
    · rw [splitOn, if_neg hd, hsplit] at h
      rcases List.mem_cons.1 h with rfl | h
      · exact fun hmem => (List.mem_cons.1 hmem).elim (Ne.symm hd) (ih List.mem_cons_self)
      · exact ih (List.mem_cons_of_mem _ h)

end Text

/-! ## Components of a path -/

namespace Path

/-- A text that can be a part of a path. -/
structure IsPart (name : Text) : Prop where
  ne_nil : name ≠ []
  ne_here : name ≠ ['.']
  no_slash : '/' ∉ name

/-- The name of a file or a folder. -/
structure IsName (name : Text) : Prop extends IsPart name where
  ne_above : name ≠ ['.', '.']

theorem isPart_of_mem_parts {path part : Text} (h : part ∈ parts path) : IsPart part := by
  obtain ⟨hsplit, hkeep⟩ := List.mem_filter.1 h
  rw [Bool.and_eq_true] at hkeep
  exact ⟨by simpa using hkeep.1, by simpa using hkeep.2, Text.not_mem_of_mem_splitOn hsplit⟩

theorem parts_nil : parts [] = [] := by decide

theorem parts_append_slash (s t : Text) : parts (s ++ '/' :: t) = parts s ++ parts t := by
  rw [parts, Text.splitOn_eq_splitOn, List.splitOn_append_cons_self, List.filter_append,
    ← Text.splitOn_eq_splitOn, ← Text.splitOn_eq_splitOn]
  rfl

theorem parts_slash (t : Text) : parts ('/' :: t) = parts t := by
  have h := parts_append_slash [] t
  rwa [parts_nil] at h

/-- Parts that are joined are read off again. -/
theorem parts_join {names : List Text} (h : ∀ name ∈ names, IsPart name) :
    parts (Text.join ['/'] names) = names := by
  cases names with
  | nil => exact parts_nil
  | cons name names =>
    rw [parts, Text.splitOn_eq_splitOn, Text.join_eq_intercalate,
      List.splitOn_intercalate _ (fun n hn => (h n hn).no_slash) (List.cons_ne_nil _ _),
      List.filter_eq_self]
    exact fun n hn => by simp [(h n hn).ne_nil, (h n hn).ne_here]

theorem IsPart.parts_eq {name : Text} (h : IsPart name) : parts name = [name] := by
  have hjoin : ∀ part ∈ [name], IsPart part := List.forall_mem_singleton.2 h
  exact parts_join hjoin

/-- A part is no start of a path. -/
theorem IsPart.splitStart_eq {name : Text} (h : IsPart name) : splitStart name = ([], name) := by
  fun_cases splitStart name with
  | case1 => exact absurd List.mem_cons_self h.no_slash
  | case2 => exact absurd rfl h.ne_here
  | case3 => exact absurd (List.mem_cons_of_mem _ List.mem_cons_self) h.no_slash
  | case4 => rfl

/-- What a path begins with does not depend on what is behind any of its separators. -/
theorem splitStart_append_slash {s : Text} (hs : s ≠ []) (t : Text) :
    splitStart (s ++ '/' :: t) = ((splitStart s).1, (splitStart s).2 ++ '/' :: t) := by
  fun_cases splitStart s with
  | case1 => rfl
  | case2 => rfl
  | case3 => rfl
  | case4 _ hroot hhere hbelow =>
    obtain ⟨c, s, rfl⟩ := List.exists_cons_of_ne_nil hs
    rw [List.cons_append, splitStart]
    · intro t' heq
      exact hroot s (congrArg (· :: s) (List.cons.inj heq).1)
    · intro heq
      exact absurd (List.cons.inj heq).2 (by simp)
    · intro t' heq
      obtain ⟨hc, heq⟩ := List.cons.inj heq
      cases s with
      | nil => exact hhere (congrArg (· :: []) hc)
      | cons d s =>
        have hd := (List.cons.inj heq).1
        exact hbelow s (by rw [hc, hd])

/-- What is behind a separator adds its parts to the components. -/
theorem components_slash_append (s t : Text) :
    components (s ++ '/' :: t) = components (s ++ ['/']) ++ parts t := by
  by_cases hs : s = []
  · subst hs
    rfl
  · simp only [components, splitStart_append_slash hs, parts_append_slash, parts_nil,
      List.append_nil]
    split
    · rfl
    · rfl

theorem components_append_slash {s : Text} (hs : s ≠ []) :
    components (s ++ ['/']) = components s := by
  simp only [components, splitStart_append_slash hs, parts_append_slash, parts_nil,
    List.append_nil]

theorem IsPart.components_eq {name : Text} (h : IsPart name) : components name = [name] := by
  rw [components, h.splitStart_eq]
  exact h.parts_eq

/-- A name behind a path is one more component. -/
theorem components_join {name : Text} (h : IsPart name) (folder : Text) :
    components (join folder name) = components folder ++ [name] := by
  have hname : isAbsolute name = false := by
    cases name with
    | nil => rfl
    | cons c name =>
      have hc : c ≠ '/' := fun heq => h.no_slash (heq ▸ List.mem_cons_self)
      simpa [isAbsolute] using hc
  by_cases hfolder : folder = []
  · subst hfolder
    rw [join, if_pos (by simp), h.components_eq]
    rfl
  · rw [join, if_neg (by simp [hname, hfolder])]
    split
    · -- A `/` at the end of the folder is the separator.
      rename_i hslash
      obtain ⟨above, rfl⟩ := List.getLast?_eq_some_iff.1 (by simpa using hslash)
      rw [List.append_assoc, List.singleton_append, components_slash_append, h.parts_eq]
    · rw [components_slash_append, components_append_slash hfolder, h.parts_eq]

/-- A row of names behind a path is a row of components. -/
theorem components_foldl_join {names : List Text} (h : ∀ name ∈ names, IsPart name)
    (folder : Text) : components (names.foldl join folder) = components folder ++ names := by
  induction names generalizing folder with
  | nil => simp
  | cons name names ih =>
    rw [List.foldl_cons, ih fun n hn => h n (List.mem_cons_of_mem _ hn),
      components_join (h name List.mem_cons_self), List.append_assoc, List.singleton_append]

/-- Names that are joined to a folder are read off from there. -/
theorem relative?_foldl_join {names : List Text} (h : ∀ name ∈ names, IsPart name)
    (folder : Text) : relative? folder (names.foldl join folder) = some names := by
  rw [relative?, components_foldl_join h, List.isPrefixOf?_eq_some_iff_append_eq]

/-- A joined row of parts has no start of its own. -/
theorem splitStart_textJoin {names : List Text} (h : ∀ name ∈ names, IsPart name) :
    splitStart (Text.join ['/'] names) = ([], Text.join ['/'] names) := by
  cases names with
  | nil => rfl
  | cons name names =>
    have hname := h name List.mem_cons_self
    cases names with
    | nil => exact hname.splitStart_eq
    | cons _ _ =>
      rw [Text.join_eq_intercalate, List.intercalate_cons_cons, List.append_assoc,
        List.singleton_append, splitStart_append_slash hname.ne_nil, hname.splitStart_eq]

/-- No path that is made of parts alone leads through a folder that begins with `.`. -/
theorem relative?_of_here {folder : Text} (hfolder : (splitStart folder).1 = ['.'])
    {names : List Text} (h : ∀ name ∈ names, IsPart name) {path : Text}
    (hpath : components path = names) : relative? folder path = none := by
  rw [relative?, Option.eq_none_iff_forall_ne_some]
  intro rest heq
  rw [List.isPrefixOf?_eq_some_iff_append_eq, hpath] at heq
  have hmem : ['.'] ∈ names := by
    simp [← heq, components, hfolder]
  exact (h _ hmem).ne_here rfl

end Path

/-! ## Pages -/

/-- The name of the page that stands for its folder. -/
def indexPage : Text := indexName ++ pageEnding

/-- The page `index` is the one that stands for a folder, and the page `page` is called like
    that folder and lies next to it. -/
def IsIndexOf (index page : List Text) : Prop :=
  ∃ above last, last ≠ indexName ∧ page = above ++ [last ++ pageEnding] ∧
    index = above ++ [last, indexPage]

/-- The names that lead to the page with a route: to an index page, or to another one. -/
def pageNames (isIndex : Bool) (route : Text) : List Text :=
  if isIndex then Path.parts route ++ [indexPage]
  else (Path.parts route).modifyLast (· ++ pageEnding)

/-- A name without its ending is what is in front of the ending. -/
theorem pageStem?_append {stem : Text} (h : Path.IsPart stem) :
    pageStem? (stem ++ pageEnding) = some stem := by
  have hafter : Text.after? pageEnding.reverse (stem ++ pageEnding).reverse = some stem.reverse :=
    Text.after?_eq_some_iff.2 List.reverse_append
  rw [pageStem?, hafter]
  split
  · rename_i heq
    exact absurd (List.reverse_eq_nil_iff.1 (Option.some.inj heq)) h.ne_nil
  · rename_i heq
    exact absurd (List.reverse_eq_iff.1 (Option.some.inj heq)) h.ne_here
  · rename_i heq
    rw [← Option.some.inj heq, List.reverse_reverse]
  · rename_i heq
    cases heq

theorem Path.IsPart.append_pageEnding {stem : Text} (h : Path.IsPart stem) :
    Path.IsPart (stem ++ pageEnding) where
  ne_nil := List.append_ne_nil_of_left_ne_nil h.ne_nil _
  ne_here heq := by
    have hlength := congrArg List.length heq
    rw [List.length_append, show pageEnding.length = 3 from rfl] at hlength
    exact absurd hlength (by simp)
  no_slash := List.not_mem_append h.no_slash (by decide)

section Routes

variable {folder folder' : List Text} {stem stem' : Text}

/-- The names in a route are those of the folder and, but for an index page, the name of the
    page without its ending. -/
theorem parts_route (hfolder : ∀ name ∈ folder, Path.IsPart name) (hstem : Path.IsPart stem) :
    Path.parts (route folder stem) = if stem = indexName then folder else folder ++ [stem] := by
  rw [route, Path.parts_slash, Path.parts_join]
  split
  · exact hfolder
  · exact List.forall_mem_append.2 ⟨hfolder, by simpa using hstem⟩

theorem isIndexOf_iff :
    IsIndexOf (folder ++ [stem ++ pageEnding]) (folder' ++ [stem' ++ pageEnding]) ↔
      stem = indexName ∧ stem' ≠ indexName ∧ folder = folder' ++ [stem'] := by
  constructor
  · rintro ⟨above, last, hlast, hpage, hindex⟩
    obtain ⟨rfl, hname⟩ := List.append_inj' hpage rfl
    obtain rfl := List.append_cancel_right (List.singleton_inj.1 hname)
    rw [List.append_cons folder'] at hindex
    obtain ⟨hfolder, hname⟩ := List.append_inj' hindex rfl
    exact ⟨List.append_cancel_right (List.singleton_inj.1 hname), hlast, hfolder⟩
  · rintro ⟨rfl, hstem, rfl⟩
    exact ⟨folder', stem', hstem, rfl, List.append_assoc _ _ _⟩

/-- Two pages have one route only if one of them is an index page and the other is called like
    its folder. -/
theorem route_eq_route_iff (hfolder : ∀ name ∈ folder, Path.IsPart name)
    (hstem : Path.IsPart stem) (hfolder' : ∀ name ∈ folder', Path.IsPart name)
    (hstem' : Path.IsPart stem')
    (hne : folder ++ [stem ++ pageEnding] ≠ folder' ++ [stem' ++ pageEnding]) :
    route folder stem = route folder' stem' ↔
      IsIndexOf (folder ++ [stem ++ pageEnding]) (folder' ++ [stem' ++ pageEnding]) ∨
        IsIndexOf (folder' ++ [stem' ++ pageEnding]) (folder ++ [stem ++ pageEnding]) := by
  have hroute : route folder stem = route folder' stem' ↔
      (if stem = indexName then folder else folder ++ [stem]) =
        if stem' = indexName then folder' else folder' ++ [stem'] := by
    constructor
    · intro heq
      rw [← parts_route hfolder hstem, heq, parts_route hfolder' hstem']
    · intro heq
      rw [route, heq, route]
  rw [hroute, isIndexOf_iff, isIndexOf_iff]
  by_cases hindex : stem = indexName
  · by_cases hindex' : stem' = indexName
    · -- Two index pages are in two folders.
      have hfolders : folder ≠ folder' := fun heq => hne (by rw [heq, hindex, hindex'])
      simp [hindex, hindex', hfolders]
    · simp [hindex, hindex']
  · by_cases hindex' : stem' = indexName
    · simp [hindex, hindex', eq_comm]
    · -- Two pages that are no index pages differ in front of their endings.
      have hnames : folder ++ [stem] ≠ folder' ++ [stem'] := by
        intro heq
        obtain ⟨rfl, hname⟩ := List.append_inj' heq rfl
        exact hne (by rw [List.singleton_inj.1 hname])
      simp only [hindex, hindex', hnames, if_false, false_and, or_self]

/-- The names that lead to a page are told by its route. -/
theorem pageNames_route (hfolder : ∀ name ∈ folder, Path.IsPart name)
    (hstem : Path.IsPart stem) :
    pageNames (stem ++ pageEnding == indexPage) (route folder stem) =
      folder ++ [stem ++ pageEnding] := by
  rw [pageNames, parts_route hfolder hstem]
  by_cases hindex : stem = indexName
  · subst hindex
    simp [indexPage]
  · have hname : stem ++ pageEnding ≠ indexPage := fun heq =>
      hindex (List.append_cancel_right heq)
    rw [if_neg (by simpa using hname), if_neg hindex, List.modifyLast_concat]

end Routes

namespace PageFile

/-- A page that lies in folders with names and has a name in front of its ending. -/
structure IsOrdinary (p : PageFile) : Prop where
  folder : ∀ name ∈ p.folder, Path.IsName name
  name : ∃ stem, Path.IsName stem ∧ p.name = stem ++ pageEnding

variable {p q : PageFile}

theorem IsOrdinary.isPart (hp : p.IsOrdinary) : ∀ name ∈ p.names, Path.IsPart name := by
  obtain ⟨stem, hstem, hname⟩ := hp.name
  refine List.forall_mem_append.2 ⟨fun name h => (hp.folder name h).toIsPart, ?_⟩
  rw [List.forall_mem_singleton, hname]
  exact hstem.append_pageEnding

/-- Every page has a route, wherever all pages are. -/
theorem IsOrdinary.pageRoute?_path (hp : p.IsOrdinary) {stem : Text} (hstem : Path.IsPart stem)
    (hname : p.name = stem ++ pageEnding) (source : Text) :
    pageRoute? source (p.path source) = some (route p.folder stem) := by
  rw [pageRoute?, path, Path.relative?_foldl_join hp.isPart, names, hname]
  simp [pageStem?_append hstem]

/-- No page that is found under a folder has a route if the folder is written with a `.` at its
    start: the page is found without the `.`, and its path does not lead through the folder. -/
theorem IsOrdinary.pageRoute?_foundUnder (hp : p.IsOrdinary) {source : Text}
    (hsource : (Path.splitStart source).1 = ['.']) :
    pageRoute? source (p.path (foundUnder source)) = none := by
  have hparts : ∀ name ∈ Path.parts source, Path.IsPart name := fun _ => Path.isPart_of_mem_parts
  have hfound : Path.components (foundUnder source) = Path.parts source := by
    rw [foundUnder, if_pos hsource, Path.components, Path.splitStart_textJoin hparts]
    exact Path.parts_join hparts
  have hnone : Path.relative? source (p.path (foundUnder source)) = none :=
    Path.relative?_of_here hsource (List.forall_mem_append.2 ⟨hparts, hp.isPart⟩)
      (by rw [path, Path.components_foldl_join hp.isPart, hfound])
  rw [pageRoute?, hnone]
  rfl

end PageFile

/-- Every page under a folder has a route, which begins with `/`. Two pages have one route if
    and only if one of them is an index page and the other is called like its folder. With the
    knowledge whether a page is an index page, its route tells the names that lead to it. -/
theorem routes_collide_at_index_iff (source : Text) {p q : PageFile} (hp : p.IsOrdinary)
    (hq : q.IsOrdinary) :
    (∃ rest, pageRoute? source (p.path source) = some ('/' :: rest)) ∧
      (p.names ≠ q.names →
        (pageRoute? source (p.path source) = pageRoute? source (q.path source) ↔
          IsIndexOf p.names q.names ∨ IsIndexOf q.names p.names)) ∧
      (pageRoute? source (p.path source)).map (pageNames (p.name == indexPage)) =
        some p.names := by
  obtain ⟨stem, hstem, hname⟩ := hp.name
  obtain ⟨stem', hstem', hname'⟩ := hq.name
  have hfolder : ∀ name ∈ p.folder, Path.IsPart name := fun n h => (hp.folder n h).toIsPart
  have hfolder' : ∀ name ∈ q.folder, Path.IsPart name := fun n h => (hq.folder n h).toIsPart
  rw [hp.pageRoute?_path hstem.toIsPart hname, hq.pageRoute?_path hstem'.toIsPart hname',
    PageFile.names, PageFile.names, hname, hname', Option.some_inj, Option.map_some,
    pageNames_route hfolder hstem.toIsPart]
  exact ⟨⟨_, rfl⟩, route_eq_route_iff hfolder hstem.toIsPart hfolder' hstem'.toIsPart, rfl⟩

/-- The page `x` in the folder `index` and the index page of the folder `x` below it have the
    route `/index/x`. -/
theorem routes_collide_at_index_iff_below_index :
    let page : PageFile := ⟨["index".toList], "x.md".toList, ByteArray.empty⟩
    let index : PageFile := ⟨["index".toList, "x".toList], "index.md".toList, ByteArray.empty⟩
    page.names ≠ index.names ∧
      pageRoute? "pages/".toList (page.path "pages/".toList) =
        pageRoute? "pages/".toList (index.path "pages/".toList) := by
  intro page index
  have hname {name : Text} (h : name ≠ [] ∧ name ≠ ['.'] ∧ '/' ∉ name ∧ name ≠ ['.', '.']) :
      Path.IsName name := ⟨⟨h.1, h.2.1, h.2.2.1⟩, h.2.2.2⟩
  have hpage : page.IsOrdinary :=
    ⟨List.forall_mem_singleton.2 (hname (by decide)), "x".toList, hname (by decide), rfl⟩
  have hindex : index.IsOrdinary :=
    ⟨List.forall_mem_cons.2 ⟨hname (by decide), List.forall_mem_singleton.2 (hname (by decide))⟩,
      indexName, hname (by decide), rfl⟩
  have hne : page.names ≠ index.names := by decide
  have hbelow : IsIndexOf index.names page.names :=
    ⟨["index".toList], "x".toList, by decide, rfl, rfl⟩
  exact ⟨hne, ((routes_collide_at_index_iff _ hpage hindex).2.1 hne).2 (.inr hbelow)⟩

end Shortcode
