import Mathlib.Data.List.Basic
import Shortcode.Menu.Pagination

/-!
# Pages make up a list

A page is the part of a list that begins `limit` items further for each page in front of
it, so the first pages of a list are a start of the list, and the number of pages is the
least one that covers it. The same pages come out of counting with words of 64 bits: the
product of the size of a page and the number of the pages in front of it stays below the
length of the list, whatever size and number are asked for.

* `Page.le_pageCount_mul`, `Page.pageCount_mul_lt`: the pages cover the list, and the last
  of them is needed.
* `Page.flatMap_select`: the first pages, one behind the other, are a start of the list.
* `Page.select?_eq`: no step of the counting leaves the words.
* `pages_partition_list`: pages, their sizes and what each tells about itself.
-/

namespace Shortcode

/-! ## Counting with words -/

namespace Word

/-- A number as a word, if it fits into 64 bits. -/
def ofNat? (n : Nat) : Option UInt64 :=
  if n < countLimit then some (UInt64.ofNat n) else none

/-- The sum of two words, if it is a word. -/
def add? (a b : UInt64) : Option UInt64 :=
  ofNat? (a.toNat + b.toNat)

/-- The difference of two words, unless it is negative. -/
def sub? (a b : UInt64) : Option UInt64 :=
  if b ≤ a then some (a - b) else none

/-- The product of two words, if it is a word. -/
def mul? (a b : UInt64) : Option UInt64 :=
  ofNat? (a.toNat * b.toNat)

/-- The quotient of two words, unless the divisor is 0. -/
def div? (a b : UInt64) : Option UInt64 :=
  if b = 0 then none else some (a / b)

/-- The remainder of two words, unless the divisor is 0. -/
def mod? (a b : UInt64) : Option UInt64 :=
  if b = 0 then none else some (a % b)

/-- The quotient of two words, rounded up. -/
def ceilDiv? (a b : UInt64) : Option UInt64 := do
  let quotient ← div? a b
  let rest ← mod? a b
  if 0 < rest then add? quotient 1 else some quotient

/-- The word nearest to `n` among those from `low` to `high`, if there are such. -/
def clamp? (n low high : UInt64) : Option UInt64 :=
  if low ≤ high then some (if n < low then low else if high < n then high else n) else none

theorem ofNat?_eq {n : Nat} (h : n < countLimit) : ∃ w, ofNat? n = some w ∧ w.toNat = n :=
  ⟨UInt64.ofNat n, if_pos h, UInt64.toNat_ofNat_of_lt' h⟩

theorem toNat_eq_zero {w : UInt64} : w.toNat = 0 ↔ w = 0 := by
  rw [← UInt64.toNat_inj]
  rfl

theorem one_le_iff {w : UInt64} : 1 ≤ w ↔ 1 ≤ w.toNat := by
  rw [UInt64.le_iff_toNat_le, UInt64.toNat_one]

/-- A quotient is rounded up without leaving the words: where there is a remainder, the
    quotient is less than the word that is divided. -/
theorem ceilDiv?_eq (a : UInt64) {b : UInt64} (hb : b ≠ 0) :
    ∃ w, ceilDiv? a b = some w ∧ w.toNat = (a.toNat + b.toNat - 1) / b.toNat := by
  have hpos : 0 < b.toNat := Nat.pos_of_ne_zero fun h => hb (toNat_eq_zero.1 h)
  have hdivide := Nat.div_add_mod a.toNat b.toNat
  have hlt := Nat.mod_lt a.toNat hpos
  have hceil {q r : Nat} (hr : r < b.toNat) (h : b.toNat * q + r = a.toNat + b.toNat - 1) :
      q = (a.toNat + b.toNat - 1) / b.toNat := by
    rw [← h, Nat.mul_add_div hpos, Nat.div_eq_of_lt hr, Nat.add_zero]
  simp only [ceilDiv?, div?, mod?, if_neg hb, Option.bind_eq_bind, Option.bind_some,
    UInt64.lt_iff_toNat_lt, UInt64.toNat_mod]
  split
  next hrest =>
    have hrest : 0 < a.toNat % b.toNat := hrest
    have hone : (a / b).toNat + (1 : UInt64).toNat < countLimit := by
      have hword : a.toNat < countLimit := UInt64.toNat_lt a
      have hle := Nat.le_mul_of_pos_left (a.toNat / b.toNat) hpos
      rw [UInt64.toNat_div, UInt64.toNat_one]
      omega
    obtain ⟨w, hw, hnat⟩ := ofNat?_eq hone
    refine ⟨w, hw, ?_⟩
    rw [hnat, UInt64.toNat_div, UInt64.toNat_one]
    refine hceil (r := a.toNat % b.toNat - 1) (by omega) ?_
    rw [Nat.mul_add]
    omega
  next hrest =>
    have hrest : ¬ 0 < a.toNat % b.toNat := hrest
    refine ⟨a / b, rfl, ?_⟩
    rw [UInt64.toNat_div]
    exact hceil (r := b.toNat - 1) (by omega) (by omega)

theorem clamp?_eq {n low high : UInt64} (h : low ≤ high) :
    ∃ w, clamp? n low high = some w ∧ w.toNat = min (max n.toNat low.toNat) high.toNat := by
  refine ⟨_, if_pos h, ?_⟩
  rw [UInt64.le_iff_toNat_le] at h
  split
  next hlow =>
    rw [UInt64.lt_iff_toNat_lt] at hlow
    omega
  next hlow =>
    rw [UInt64.lt_iff_toNat_lt] at hlow
    split
    next hhigh =>
      rw [UInt64.lt_iff_toNat_lt] at hhigh
      omega
    next hhigh =>
      rw [UInt64.lt_iff_toNat_lt] at hhigh
      omega

end Word

namespace Page

/-! ## The number of pages -/

section Count

variable (total : Nat) {limit : Nat}

theorem pageCount_of_pos (h : 0 < limit) :
    pageCount total limit = max 1 ((total + limit - 1) / limit) := by
  rw [pageCount, if_neg (Nat.ne_of_gt h)]

/-- The pages cover a list. -/
theorem le_pageCount_mul (h : 0 < limit) : total ≤ pageCount total limit * limit := by
  have hlt := Nat.lt_div_mul_add (a := total + limit - 1) h
  have hle : (total + limit - 1) / limit * limit ≤ pageCount total limit * limit := by
    rw [pageCount_of_pos total h]
    exact Nat.mul_le_mul_right limit (Nat.le_max_right _ _)
  omega

/-- The last page of a list with items is needed: the pages in front of it do not cover
    the list. -/
theorem pageCount_mul_lt (h : 0 < limit) (htotal : 0 < total) :
    (pageCount total limit - 1) * limit < total := by
  have hle := Nat.div_mul_le_self (total + limit - 1) limit
  have hone : 1 ≤ (total + limit - 1) / limit := (Nat.one_le_div_iff h).2 (by omega)
  rw [pageCount_of_pos total h, Nat.max_eq_right hone, Nat.sub_mul, Nat.one_mul]
  omega

/-- No page begins behind the end of a list. -/
theorem pageCount_mul_le (h : 0 < limit) : (pageCount total limit - 1) * limit ≤ total := by
  rcases Nat.eq_zero_or_pos total with rfl | htotal
  · have hzero : (0 + limit - 1) / limit = 0 := Nat.div_eq_of_lt (by omega)
    have hone : pageCount 0 limit = 1 := by
      rw [pageCount_of_pos 0 h, hzero, Nat.max_eq_left (Nat.zero_le 1)]
    have hbegin : (pageCount 0 limit - 1) * limit = 0 := by
      rw [hone, Nat.sub_self, Nat.zero_mul]
    exact Nat.le_of_eq hbegin
  · exact Nat.le_of_lt (pageCount_mul_lt total h htotal)

end Count

/-! ## The items of a page -/

section Items

variable {items : List MenuItem} {limit number : Nat}

@[simp] theorem count_select (items : List MenuItem) (limit number : Nat) :
    (select items limit number).count = pageCount items.length limit := rfl

/-- A page that there is, is the page that was asked for. -/
theorem number_select (h : 1 ≤ number) (hle : number ≤ pageCount items.length limit) :
    (select items limit number).number = number := by
  simp only [select]
  omega

theorem items_select (h : 0 < limit) :
    (select items limit number).items =
      (items.drop (((select items limit number).number - 1) * limit)).take limit := by
  simp only [select, if_neg (Nat.ne_of_gt h)]

/-- The first pages of a list, one behind the other, are a start of it. -/
theorem flatMap_select (h : 0 < limit) {last : Nat} (hlast : last ≤ pageCount items.length limit) :
    ((List.range' 1 last).flatMap fun n => (select items limit n).items) =
      items.take (last * limit) := by
  induction last with
  | zero => simp
  | succ last ih =>
    rw [List.range'_concat, List.flatMap_append, ih (by omega), List.flatMap_singleton,
      items_select h, number_select (by omega) (by omega), Nat.one_mul, Nat.add_sub_cancel_left,
      Nat.succ_mul, List.take_add]

/-- A page holds `limit` items, or what is left of the list. -/
theorem length_items_select (h : 0 < limit) :
    (select items limit number).items.length =
      min limit (items.length - ((select items limit number).number - 1) * limit) := by
  rw [items_select h, List.length_take, List.length_drop]

end Items

/-! ## Counting pages with words -/

/-- The number of pages, counted with words. -/
def pageCount? (total limit : UInt64) : Option UInt64 :=
  if limit = 0 then some 1 else (Word.ceilDiv? total limit).map fun count =>
    if 1 ≤ count then count else 1

/-- The items of the page with a number, counted with words. -/
def items? (items : List MenuItem) (limit number : UInt64) : Option (List MenuItem) := do
  if limit = 0 then some items
  else
    let before ← Word.sub? number 1
    let skipped ← Word.mul? before limit
    some ((items.drop skipped.toNat).take limit.toNat)

/-- The page with the given number, or the nearest one, counted with words; `none` if a
    step leaves them, divides by 0 or asks for the nearest one of no numbers. -/
def select? (items : List MenuItem) (limit number : UInt64) : Option Page := do
  let total ← Word.ofNat? items.length
  let count ← pageCount? total limit
  let number ← Word.clamp? number 1 count
  let shown ← items? items limit number
  some { items := shown, number := number.toNat, limit := limit.toNat, total := total.toNat,
         count := count.toNat }

section Words

variable {items : List MenuItem} {limit number : UInt64}

theorem pageCount?_eq (total limit : UInt64) :
    ∃ w, pageCount? total limit = some w ∧ w.toNat = pageCount total.toNat limit.toNat := by
  by_cases hlimit : limit = 0
  · exact ⟨1, if_pos hlimit, by rw [hlimit]; rfl⟩
  · have hpos : 0 < limit.toNat := Nat.pos_of_ne_zero fun h => hlimit (Word.toNat_eq_zero.1 h)
    obtain ⟨w, hw, hnat⟩ := Word.ceilDiv?_eq total hlimit
    refine ⟨if 1 ≤ w then w else 1, by rw [pageCount?, if_neg hlimit, hw, Option.map_some], ?_⟩
    rw [pageCount_of_pos _ hpos, ← hnat]
    split
    next hone => exact (Nat.max_eq_right (Word.one_le_iff.1 hone)).symm
    next hone =>
      rw [Word.one_le_iff] at hone
      rw [UInt64.toNat_one]
      omega

/-- The items in front of a page that there is are counted without leaving the words: the
    page begins in the list, or at its end. -/
theorem items?_eq (hitems : items.length < countLimit) (hone : 1 ≤ number.toNat)
    (hle : number.toNat ≤ pageCount items.length limit.toNat) :
    items? items limit number = some (if limit.toNat = 0 then items
      else (items.drop ((number.toNat - 1) * limit.toNat)).take limit.toNat) := by
  by_cases hlimit : limit = 0
  · rw [items?, if_pos hlimit, if_pos (Word.toNat_eq_zero.2 hlimit)]
  · have hne : limit.toNat ≠ 0 := fun h => hlimit (Word.toNat_eq_zero.1 h)
    have hbefore : (number - 1).toNat = number.toNat - 1 :=
      UInt64.toNat_sub_of_le _ _ (Word.one_le_iff.2 hone)
    have hskipped : (number - 1).toNat * limit.toNat < countLimit := by
      refine Nat.lt_of_le_of_lt ?_ hitems
      rw [hbefore]
      exact Nat.le_trans (Nat.mul_le_mul_right _ (Nat.sub_le_sub_right hle 1))
        (pageCount_mul_le _ (Nat.pos_of_ne_zero hne))
    obtain ⟨w, hw, hnat⟩ := Word.ofNat?_eq hskipped
    have hsub : Word.sub? number 1 = some (number - 1) := if_pos (Word.one_le_iff.2 hone)
    have hmul : Word.mul? (number - 1) limit = some w := hw
    simp only [items?, if_neg hlimit, if_neg hne, hsub, hmul, Option.bind_eq_bind,
      Option.bind_some, hnat, hbefore]

/-- Whatever size and number are asked for, no step of the selection leaves the words, and
    the page is the one that is selected with numbers of any size. -/
theorem select?_eq (hitems : items.length < countLimit) (limit number : UInt64) :
    select? items limit number = some (select items limit.toNat number.toNat) := by
  obtain ⟨total, htotal, hlength⟩ := Word.ofNat?_eq hitems
  obtain ⟨count, hcount, hpages⟩ := pageCount?_eq total limit
  rw [hlength] at hpages
  have hone : 1 ≤ count.toNat := hpages ▸ one_le_pageCount items.length limit.toNat
  obtain ⟨page, hpage, hnumber⟩ := Word.clamp?_eq (n := number) (Word.one_le_iff.2 hone)
  rw [UInt64.toNat_one, hpages] at hnumber
  have hshown : items? items limit page = _ := items?_eq hitems (by omega) (by omega)
  simp only [select?, htotal, hcount, hpage, hshown, Option.bind_eq_bind, Option.bind_some,
    select, ← hnumber, hlength, hpages]

end Words

/-! ## Pages of a list -/

/-- Pages with the numbers from 1 to `count` cut a list into parts of `limit` items. -/
structure Cuts (items : List MenuItem) (limit count : Nat) (page : Nat → Page) : Prop where
  one_le_count : 1 ≤ count
  whole : ((List.range' 1 count).flatMap fun n => (page n).items) = items
  full : 0 < limit → ∀ n, 1 ≤ n → n < count → (page n).items.length = limit
  last_le : 0 < limit → (page count).items.length ≤ limit
  last_pos : items ≠ [] → 1 ≤ (page count).items.length
  single : limit = 0 → count = 1 ∧ ∀ n, (page n).items = items

/-- What is given for the number `n` is the page with that number, or the nearest one, and
    it tells where it stands among the pages from 1 to `count`. -/
structure Tells (items : List MenuItem) (limit count n : Nat) (page : Page) : Prop where
  inside : 1 ≤ n → n ≤ count → page.number = n
  below : n < 1 → page.number = 1
  above : count < n → page.number = count
  count_eq : page.count = count
  limit_eq : page.limit = limit
  total_eq : page.total = items.length
  previous : page.hasPrevious = true ↔ ∃ m, 1 ≤ m ∧ m ≤ count ∧ m < page.number
  next : page.hasNext = true ↔ ∃ m, 1 ≤ m ∧ m ≤ count ∧ page.number < m

theorem cuts_select (items : List MenuItem) (limit : Nat) :
    Cuts items limit (pageCount items.length limit) (select items limit) := by
  have hone := one_le_pageCount items.length limit
  rcases Nat.eq_zero_or_pos limit with rfl | hpos
  · exact {
      one_le_count := hone
      whole := List.append_nil items
      full := fun h => absurd h (Nat.lt_irrefl 0)
      last_le := fun h => absurd h (Nat.lt_irrefl 0)
      last_pos := fun hne => List.length_pos_iff.2 hne
      single := fun _ => ⟨rfl, fun _ => rfl⟩ }
  · have hcover := le_pageCount_mul items.length hpos
    have hlength {n : Nat} (h : 1 ≤ n) (hle : n ≤ pageCount items.length limit) :
        (select items limit n).items.length = min limit (items.length - (n - 1) * limit) := by
      rw [length_items_select hpos, number_select h hle]
    exact {
      one_le_count := hone
      whole := by rw [flatMap_select hpos (Nat.le_refl _), List.take_of_length_le hcover]
      full := by
        intro _ n h hlt
        -- the page behind this one begins in the list too
        have hbegins := pageCount_mul_le items.length hpos
        have hle : n * limit ≤ items.length :=
          Nat.le_trans (Nat.mul_le_mul_right _ (Nat.le_sub_one_of_lt hlt)) hbegins
        have hsplit : n * limit = (n - 1) * limit + limit := by
          rw [← Nat.succ_mul, Nat.succ_eq_add_one, Nat.sub_add_cancel h]
        rw [hlength h (Nat.le_of_lt hlt)]
        omega
      last_le := by
        intro _
        rw [hlength hone (Nat.le_refl _)]
        exact Nat.min_le_left _ _
      last_pos := by
        intro hne
        have hlt := pageCount_mul_lt items.length hpos (List.length_pos_iff.2 hne)
        rw [hlength hone (Nat.le_refl _)]
        omega
      single := fun h => absurd h (Nat.ne_of_gt hpos) }

theorem tells_select (items : List MenuItem) (limit n : Nat) :
    Tells items limit (pageCount items.length limit) n (select items limit n) := by
  have hone := one_le_pageCount items.length limit
  obtain ⟨hlow, hhigh⟩ := page_mem_range items limit n
  rw [count_select] at hhigh
  exact {
    inside := number_select
    below := by
      intro h
      simp only [select]
      omega
    above := by
      intro h
      simp only [select]
      omega
    count_eq := rfl
    limit_eq := rfl
    total_eq := rfl
    previous := by
      rw [hasPrevious, decide_eq_true_iff]
      refine ⟨fun h => ⟨1, Nat.le_refl 1, hone, h⟩, ?_⟩
      rintro ⟨m, hm, -, h⟩
      exact Nat.lt_of_le_of_lt hm h
    next := by
      rw [hasNext, decide_eq_true_iff, count_select]
      refine ⟨fun h => ⟨_, hone, Nat.le_refl _, h⟩, ?_⟩
      rintro ⟨m, -, hm, h⟩
      exact Nat.lt_of_lt_of_le h hm }

/-- A number out of range gives the page with the nearest number. -/
theorem select_number (items : List MenuItem) (limit n : Nat) :
    select items limit (select items limit n).number = select items limit n := by
  have hone := one_le_pageCount items.length limit
  have hsame : min (max (select items limit n).number 1) (pageCount items.length limit) =
      (select items limit n).number := by
    simp only [select]
    omega
  conv_lhs => rw [select]
  rw [hsame]
  rfl

end Page

/-- The pages of a list, from the first one to the last, make up the list, whatever their
    size is; all but the last one are full, and the last one is empty for the empty list
    only. A size of 0 puts the whole list on one page. A number out of range means the
    nearest page, and a page tells where it stands. Words of 64 bits are enough to count
    the pages of a list whose items can be counted with them. -/
theorem pages_partition_list (items : List MenuItem) :
    (∀ limit, Page.Cuts items limit (Page.pageCount items.length limit)
        (Page.select items limit) ∧
      ∀ n, Page.Tells items limit (Page.pageCount items.length limit) n
          (Page.select items limit n) ∧
        Page.select items limit n = Page.select items limit (Page.select items limit n).number) ∧
    (items.length < countLimit → ∀ limit number : UInt64,
      Page.select? items limit number = some (Page.select items limit.toNat number.toNat)) := by
  refine ⟨fun limit => ⟨Page.cuts_select items limit, fun n => ⟨Page.tells_select items limit n,
    (Page.select_number items limit n).symm⟩⟩, fun hitems limit number => ?_⟩
  exact Page.select?_eq hitems limit number

/-- The largest word as the number of a page gives the last one, here with one item. -/
theorem pages_partition_list_largest :
    let item (name : Char) : MenuItem := ⟨[name], Table.empty⟩
    let items := [item 'a', item 'b', item 'c']
    items.length < countLimit ∧
      Page.select? items 2 18446744073709551615 =
        some { items := [item 'c'], number := 2, limit := 2, total := 3, count := 2 } := by
  intro item items
  have hitems : items.length < countLimit := by decide
  have hlimit : (2 : UInt64).toNat = 2 := rfl
  have hnumber : (18446744073709551615 : UInt64).toNat = 18446744073709551615 := rfl
  refine ⟨hitems, ?_⟩
  rw [(pages_partition_list items).2 hitems 2 18446744073709551615, hlimit, hnumber]
  simp [Page.select, Page.pageCount, items]

end Shortcode
