namespace Advisor.Text

/-- The characters with Unicode's `White_Space` property. -/
def isBlank (c : Char) : Bool :=
  let n := c.toNat
  (9 ≤ n && n ≤ 13) || n == 0x20 || n == 0x85 || n == 0xA0 || n == 0x1680 ||
    (0x2000 ≤ n && n ≤ 0x200A) || n == 0x2028 || n == 0x2029 || n == 0x202F || n == 0x205F ||
    n == 0x3000

def dropEndWhile (p : Char → Bool) (cs : List Char) : List Char :=
  (cs.reverse.dropWhile p).reverse

def strip (p : Char → Bool) (cs : List Char) : List Char :=
  dropEndWhile p (cs.dropWhile p)

def trim (s : String) : String :=
  .ofList (strip isBlank s.toList)

def pieces (separator : Char → Bool) (cs : List Char) : List (List Char) :=
  (cs.splitOnP separator).filter (!·.isEmpty)

def words (s : String) : List String :=
  (pieces isBlank s.toList).map .ofList

theorem toList_trim (s : String) : (trim s).toList = strip isBlank s.toList :=
  String.toList_ofList

theorem mem_strip {p : Char → Bool} {c : Char} {cs : List Char} (hmem : c ∈ cs)
    (hc : p c = false) : c ∈ strip p cs := by
  have drop {cs : List Char} (hmem : c ∈ cs) : c ∈ cs.dropWhile p := by
    rw [← List.takeWhile_append_dropWhile (p := p) (l := cs)] at hmem
    refine (List.mem_append.1 hmem).resolve_left fun htaken => ?_
    have := List.all_eq_true.1 List.all_takeWhile c htaken
    rw [hc] at this
    cases this
  rw [strip, dropEndWhile, List.mem_reverse]
  exact drop (List.mem_reverse.2 (drop hmem))

end Advisor.Text
