import Inlay.Proofs.LoaderTag
import Mathlib.Data.List.DropRight

/-!
# Names as they are looked up

A module name loses its loader tag, which is found by counting bytes from the end, and is then put
behind the folder of the file that names it, which is found by going through the steps of the
file's path from the end. Told by characters, both are simple: five characters are dropped or none,
and folder and name are put together **as they are written**.

* `isSome_splitAtByte?_iff`: a cut by bytes exists exactly at the boundaries of characters.
* `tag_is_told_by_characters`: the tag that is dropped.
* `segments_eq_splitOn`, `dropIdle_segments`: the steps of a path.
* `IsFolder`, `IsFileName`, `parent?_append`: the folder of a file.
* `names_are_looked_up_as_written`: the path of a module.
-/

namespace Inlay

/-! ## Cuts by bytes -/

namespace Text

theorem byteLength_toList (s : String) : byteLength s.toList = s.utf8ByteSize := by
  have hlist : ∀ cs : List Char, byteLength cs = (String.ofList cs).utf8ByteSize := by
    intro cs
    induction cs with
    | nil => rfl
    | cons c cs ih =>
        rw [byteLength_cons, ih, ← List.singleton_append, String.ofList_append,
          String.utf8ByteSize_append, ← String.singleton_eq_ofList, String.utf8ByteSize_singleton]
  rw [hlist, String.ofList_toList]

/-- What a cut leaves in front has as many bytes as were asked for. -/
theorem byteLength_of_splitAtByte? {n : Nat} {s front back : List Char}
    (h : splitAtByte? n s = some (front, back)) : byteLength front = n := by
  induction s generalizing n front with
  | nil =>
      rw [splitAtByte?] at h
      split at h
      case isTrue hzero =>
          cases h
          exact hzero.symm
      case isFalse => cases h
  | cons c s ih =>
      rw [splitAtByte?] at h
      split at h
      case isTrue hzero =>
          cases h
          exact hzero.symm
      case isFalse =>
          split at h
          case isTrue hsize =>
              obtain ⟨⟨front', back'⟩, hsplit, hpair⟩ := Option.map_eq_some_iff.mp h
              cases hpair
              rw [byteLength_cons, ih hsplit, Nat.add_sub_cancel' hsize]
          case isFalse => cases h

/-- **A cut by bytes exists exactly at the boundaries of characters.** -/
theorem isSome_splitAtByte?_iff (s : String) (n : Nat) :
    (splitAtByte? n s.toList).isSome = true ↔ String.Pos.Raw.IsValid s ⟨n⟩ := by
  rw [Option.isSome_iff_exists, String.Pos.Raw.isValid_iff_exists_append]
  constructor
  · rintro ⟨⟨front, back⟩, hsplit⟩
    refine ⟨String.ofList front, String.ofList back, ?_, ?_⟩
    · rw [← String.ofList_append, ← eq_append_of_splitAtByte? hsplit, String.ofList_toList]
    · rw [String.Pos.Raw.ext_iff, String.byteIdx_rawEndPos, ← byteLength_toList,
        String.toList_ofList, byteLength_of_splitAtByte? hsplit]
  · rintro ⟨front, back, rfl, hn⟩
    refine ⟨(front.toList, back.toList), ?_⟩
    have hsize : n = byteLength front.toList := by
      rw [byteLength_toList, ← String.byteIdx_rawEndPos, ← hn]
    rw [String.toList_append, hsize, splitAtByte?_append]

end Text

/-! ## The tag by characters -/

/-- **The loader tag**, each letter in either ASCII case. -/
def IsTag (word : List Char) : Prop :=
  List.Forall₂ (fun letter c => c = letter ∨ c = letter.toUpper) ['!', 'j', 's', 'o', 'n'] word

/-- The characters that become a letter of the tag when their case is changed. -/
theorem toLower_eq_iff_of_mem_tag {letter c : Char} (h : letter ∈ Path.tag) :
    c.toLower = letter ↔ c = letter ∨ c = letter.toUpper := by
  have hascii : ∀ n : Fin 128, (Path.tag.all fun letter => (Char.ofNat n).toLower = letter →
      Char.ofNat n = letter ∨ Char.ofNat n = letter.toUpper) = true := by
    decide
  have hall : (Path.tag.all fun letter =>
      letter.toLower = letter ∧ letter.toUpper.toLower = letter) = true := by
    decide
  have hback := of_decide_eq_true (List.all_eq_true.mp hall letter h)
  constructor
  · intro hlower
    have hsize := Path.utf8Size_of_toLower_mem_tag (hlower ▸ h)
    have hlt : c.toNat < 128 := by
      have hval := Char.utf8Size_eq_one_iff.mp hsize
      exact Nat.lt_succ_of_le hval
    have hc := of_decide_eq_true (List.all_eq_true.mp (hascii ⟨c.toNat, hlt⟩) letter h)
    rw [Char.ofNat_toNat] at hc
    exact hc hlower
  · rintro (rfl | rfl)
    · exact hback.1
    · exact hback.2

theorem isTag_iff {word : List Char} : IsTag word ↔ word.map Char.toLower = Path.tag := by
  have hforms : ∀ letters : List Char, (∀ letter ∈ letters, letter ∈ Path.tag) → ∀ word,
      List.Forall₂ (fun letter c => c = letter ∨ c = letter.toUpper) letters word ↔
        word.map Char.toLower = letters := by
    intro letters
    induction letters with
    | nil =>
        intro _ word
        rw [List.forall₂_nil_left_iff, List.map_eq_nil_iff]
    | cons letter letters ih =>
        intro hmem word
        cases word with
        | nil => simp
        | cons c word =>
            rw [List.forall₂_cons, List.map_cons, List.cons.injEq,
              toLower_eq_iff_of_mem_tag (hmem letter List.mem_cons_self),
              ih (fun letter h => hmem letter (List.mem_cons_of_mem _ h))]
  exact hforms Path.tag (fun _ h => h) word

/-- **The tag is told by characters.** If the last five characters are there and spell the tag, they
    are dropped, and the cut falls on the boundary of a character; otherwise nothing is dropped. Of
    several tags behind one another only the last one is. -/
theorem tag_is_told_by_characters (m : String) :
    (IsTag (m.toList.rtake 5) →
      Path.stripTag m.toList = m.toList.rdrop 5 ∧
        String.Pos.Raw.IsValid m ⟨m.utf8ByteSize - 5⟩ ∧
        (String.ofList (Path.stripTag m.toList)).utf8ByteSize = m.utf8ByteSize - 5) ∧
    (¬ IsTag (m.toList.rtake 5) → Path.stripTag m.toList = m.toList) ∧
    ∀ (front : List Char) (tags : List (List Char)) (last : List Char),
      (∀ tag ∈ tags ++ [last], IsTag tag) → m.toList = front ++ (tags ++ [last]).flatten →
        Path.stripTag m.toList = front ++ tags.flatten := by
  have hparts : m.toList.rdrop 5 ++ m.toList.rtake 5 = m.toList := List.take_append_drop _ _
  refine ⟨?_, ?_, ?_⟩
  · intro htag
    have hlower := isTag_iff.mp htag
    have hstrip : Path.stripTag m.toList = m.toList.rdrop 5 := by
      have happend := Path.stripTag_append (m.toList.rdrop 5) hlower
      rwa [hparts] at happend
    have hsize : Text.byteLength (m.toList.rdrop 5) = m.utf8ByteSize - 5 := by
      rw [← Text.byteLength_toList]
      conv_rhs => rw [← hparts]
      rw [Text.byteLength_append, Path.byteLength_of_tag hlower, Nat.add_sub_cancel]
    refine ⟨hstrip, ?_, ?_⟩
    · rw [← Text.isSome_splitAtByte?_iff, ← hsize]
      conv => lhs; arg 1; arg 2; rw [← hparts]
      rw [Text.splitAtByte?_append]
      rfl
    · rw [← Text.byteLength_toList, String.toList_ofList, hstrip, hsize]
  · intro htag
    refine Path.stripTag_of_no_tag ?_
    intro front back hm hback
    refine htag ?_
    have hlength := Path.length_of_tag hback
    have hlast : m.toList.rtake 5 = back := by
      rw [hm, List.rtake, List.length_append, hlength, Nat.add_sub_cancel, List.drop_left]
    rw [hlast]
    exact isTag_iff.mpr hback
  · intro front tags last htags hm
    have hlast : IsTag last := htags last (List.mem_append_right tags List.mem_cons_self)
    rw [hm, List.flatten_concat, ← List.append_assoc]
    exact Path.stripTag_append _ (isTag_iff.mp hlast)

/-- Of two tags behind one another the last one is dropped, and bytes in the middle of a character
    are no tag. -/
theorem repeated_tag_is_dropped_once :
    (IsTag ("é.json!json!JSON".toList.rtake 5) ∧
      Path.stripTag "é.json!json!JSON".toList = "é.json!json".toList ∧
      String.Pos.Raw.IsValid "é.json!json!JSON" ⟨12⟩) ∧
    ¬ IsTag ("a€€".toList.rtake 5) ∧ Path.stripTag "a€€".toList = "a€€".toList := by
  have hfirst : IsTag "!json".toList := isTag_iff.mpr (by decide +kernel)
  have hlast : IsTag "!JSON".toList := isTag_iff.mpr (by decide +kernel)
  have htag : IsTag ("é.json!json!JSON".toList.rtake 5) := isTag_iff.mpr (by decide +kernel)
  have hnone : ¬ IsTag ("a€€".toList.rtake 5) := by
    rw [isTag_iff]
    decide +kernel
  obtain ⟨hdropped, -, hrow⟩ := tag_is_told_by_characters "é.json!json!JSON"
  refine ⟨⟨htag, ?_, (hdropped htag).2.1⟩, hnone, (tag_is_told_by_characters "a€€").2.1 hnone⟩
  refine (hrow "é.json".toList ["!json".toList] "!JSON".toList ?_ (by decide +kernel)).trans
    (by decide +kernel)
  intro tag htag
  rcases List.mem_pair.mp htag with rfl | rfl
  · exact hfirst
  · exact hlast

/-! ## Steps of a path -/

namespace Path

theorem segments_eq_splitOn (s : List Char) : segments s = s.splitOn '/' := by
  induction s with
  | nil => rfl
  | cons c s ih =>
      obtain ⟨first, others, hs⟩ := List.exists_cons_of_ne_nil (List.splitOn_ne_nil '/' s)
      rw [segments, ih, List.splitOn_cons_eq_if_modifyHead]
      by_cases hc : c = '/'
      · rw [if_pos hc, if_pos (beq_iff_eq.mpr hc)]
      · rw [if_neg hc, if_neg (fun h => hc (beq_iff_eq.mp h)), hs]
        rfl

/-- Joining the segments of a path gives the path. -/
theorem ofSegments_segments (s : List Char) : ofSegments (segments s) = s := by
  rw [segments_eq_splitOn]
  exact List.intercalate_splitOn '/'

theorem segments_of_no_slash {s : List Char} (h : '/' ∉ s) : segments s = [s] := by
  rw [segments_eq_splitOn]
  exact List.splitOn_eq_singleton h

/-- What stands behind the last slash is the last segment. -/
theorem segments_append {folder name : List Char} (h : '/' ∉ name) :
    segments (folder ++ '/' :: name) = segments folder ++ [name] := by
  rw [← segments_of_no_slash h]
  simp only [segments_eq_splitOn]
  exact List.splitOn_append_cons_self folder name

/-- A step at the end keeps the segments before it. -/
theorem dropIdle_concat {parts : List (List Char)} {last : List Char} (h : isIdle last = false) :
    dropIdle (parts ++ [last]) = parts ++ [last] :=
  List.rdropWhile_concat_neg isIdle parts last (Bool.eq_false_iff.mp h)

theorem isIdle_eq_false {segment : List Char} (hempty : segment ≠ []) (hdot : segment ≠ ['.']) :
    isIdle segment = false := by
  rw [isIdle, beq_false_of_ne hempty, beq_false_of_ne hdot]
  rfl

/-- A path with a slash is cut at the last one. -/
theorem exists_last_slash {s : List Char} (h : '/' ∈ s) :
    ∃ folder name, s = folder ++ '/' :: name ∧ '/' ∉ name := by
  obtain ⟨before, after, hs, hbefore⟩ := List.eq_append_cons_of_mem (List.mem_reverse.mpr h)
  refine ⟨after.reverse, before.reverse, ?_, by simpa using hbefore⟩
  rw [← List.reverse_reverse s, hs]
  simp

/-- **Nothing is dropped from the end of a path** that ends in a step. -/
theorem dropIdle_segments {s : List Char} (hempty : s ≠ []) (hdot : s ≠ ['.'])
    (hslash : ¬ ['/'] <:+ s) (hslashDot : ¬ ['/', '.'] <:+ s) :
    dropIdle (segments s) = segments s := by
  by_cases h : '/' ∈ s
  · obtain ⟨folder, name, rfl, hname⟩ := exists_last_slash h
    rw [segments_append hname]
    refine dropIdle_concat (isIdle_eq_false ?_ ?_)
    · rintro rfl
      exact hslash (List.suffix_append folder ['/'])
    · rintro rfl
      exact hslashDot (List.suffix_append folder ['/', '.'])
  · rw [segments_of_no_slash h]
    exact @dropIdle_concat [] s (isIdle_eq_false hempty hdot)

/-- A path that starts neither with a slash nor with a dot as its first step has all its text in its
    steps. -/
theorem split_of_bare {s : List Char} (hroot : ∀ rest, s ≠ '/' :: rest) (hdot : s ≠ ['.'])
    (hhere : ∀ rest, s ≠ '.' :: '/' :: rest) : split s = (.bare, s) := by
  rw [split.eq_def]
  split
  · exact absurd rfl (hroot _)
  · exact absurd rfl hdot
  · exact absurd rfl (hhere _)
  · rfl

/-! ## Folders -/

/-- **A folder** as it is written before a slash and a file name: it is not empty, and ends neither
    in a slash nor in a single dot behind a slash. -/
structure IsFolder (folder : List Char) : Prop where
  nonempty : folder ≠ []
  no_slash : ¬ ['/'] <:+ folder
  no_dot : ¬ ['/', '.'] <:+ folder

/-- **A file name**: not empty, without a slash, and not the single dot. -/
structure IsFileName (name : List Char) : Prop where
  nonempty : name ≠ []
  no_slash : '/' ∉ name
  no_dot : name ≠ ['.']

section

variable {path folder name : List Char}

/-- The parent of a path whose steps end in a file name. -/
theorem parent?_of_split (start : Start) (steps : List Char) (hname : IsFileName name)
    (hsplit : split path = (start, steps ++ '/' :: name)) :
    parent? path = some (start.text ++ ofSegments (dropIdle (segments steps))) := by
  have hsegments : dropIdle (segments (steps ++ '/' :: name)) = segments steps ++ [name] := by
    rw [segments_append hname.no_slash]
    exact dropIdle_concat (isIdle_eq_false hname.nonempty hname.no_dot)
  rw [parent?, hsplit]
  simp only [hsegments, List.reverse_append, List.reverse_singleton, List.singleton_append,
    List.reverse_reverse]

/-- Steps before a file name stay as they are written, if they end in a step. -/
theorem parent?_of_steps (start : Start) (steps : List Char) (hname : IsFileName name)
    (hsplit : split path = (start, steps ++ '/' :: name)) (hempty : steps ≠ [])
    (hdot : steps ≠ ['.']) (hfolder : IsFolder (start.text ++ steps)) :
    parent? path = some (start.text ++ steps) := by
  have hslash : ¬ ['/'] <:+ steps :=
    fun h => hfolder.no_slash (h.trans (List.suffix_append start.text steps))
  have hslashDot : ¬ ['/', '.'] <:+ steps :=
    fun h => hfolder.no_dot (h.trans (List.suffix_append start.text steps))
  rw [parent?_of_split start steps hname hsplit,
    dropIdle_segments hempty hdot hslash hslashDot, ofSegments_segments]

/-- **The parent of a file in a folder is the folder as it is written.** -/
theorem parent?_append (hfolder : IsFolder folder) (hname : IsFileName name) :
    parent? (folder ++ '/' :: name) = some folder := by
  -- the folder starts at the root, at a single dot that ends in a slash, or bare
  cases folder with
  | nil => exact absurd rfl hfolder.nonempty
  | cons c steps =>
      by_cases hroot : c = '/'
      · subst hroot
        refine parent?_of_steps .root steps hname rfl ?_ ?_ hfolder
        · rintro rfl
          exact hfolder.no_slash List.suffix_rfl
        · rintro rfl
          exact hfolder.no_dot List.suffix_rfl
      · by_cases hhere : c = '.' ∧ ∀ d ∈ steps.head?, d = '/'
        · obtain ⟨rfl, hslash⟩ := hhere
          cases steps with
          | nil => exact parent?_of_split .here [] hname rfl
          | cons d steps =>
              obtain rfl := hslash d rfl
              exact parent?_of_steps .here ('/' :: steps) hname rfl (by simp) (by simp) hfolder
        · have hbare : split (c :: steps ++ '/' :: name)
              = (.bare, c :: steps ++ '/' :: name) := by
            refine split_of_bare ?_ (by simp) ?_
            · rintro rest ⟨⟩
              exact hroot rfl
            · intro rest h
              refine hhere ⟨(List.cons.inj h).1, ?_⟩
              intro d hd
              cases steps with
              | nil => cases hd
              | cons e steps =>
                  cases hd
                  exact (List.cons.inj (List.cons.inj h).2).1
          refine parent?_of_steps .bare (c :: steps) hname hbare (by simp) ?_ hfolder
          rintro ⟨⟩
          exact hhere ⟨rfl, by simp⟩

/-- **A path without a slash has no folder**, or an empty one. -/
theorem parent?_of_no_slash (h : '/' ∉ path) : parent? path = none ∨ parent? path = some [] := by
  by_cases hdot : path = ['.']
  · subst hdot
    exact Or.inr rfl
  · have hbare : split path = (.bare, path) := by
      refine split_of_bare ?_ hdot ?_
      · rintro rest rfl
        exact h List.mem_cons_self
      · rintro rest rfl
        exact h (List.mem_cons_of_mem _ List.mem_cons_self)
    rw [parent?, hbare]
    simp only [segments_of_no_slash h]
    by_cases hempty : path = []
    · subst hempty
      exact Or.inl rfl
    · have hidle := isIdle_eq_false hempty hdot
      have hsteps : dropIdle [path] = [path] := @dropIdle_concat [] path hidle
      rw [hsteps]
      exact Or.inr rfl

end

/-! ## Resolution -/

/-- A name that starts with a slash replaces the folder. -/
theorem join_of_slash {name : List Char} (h : name.head? = some '/') (folder : List Char) :
    join folder name = name := by
  rw [join, if_pos]
  rw [h]
  rfl

/-- Any other name is put behind the folder and a slash. -/
theorem join_of_isFolder {folder name : List Char} (hfolder : IsFolder folder)
    (h : name.head? ≠ some '/') : join folder name = folder ++ '/' :: name := by
  have hlast : folder.getLast? ≠ some '/' := by
    intro hlast
    obtain ⟨before, rfl⟩ := List.getLast?_eq_some_iff.mp hlast
    exact hfolder.no_slash (List.suffix_append before ['/'])
  have hempty : folder.isEmpty = false := by
    simpa using hfolder.nonempty
  rw [join, if_neg, if_neg hlast]
  simp [h, hempty]

/-- The empty folder adds nothing. -/
theorem join_nil (name : List Char) : join [] name = name := by
  rw [join, if_pos]
  exact Bool.or_true _

/-- The name of a module without its tag. -/
def untagged (m : String) : String := String.ofList (stripTag m.toList)

end Path

/-- **Names are looked up as they are written.** If the name of a module, without its tag, starts
    with a slash, it is the path, whatever file names it. If not, the path is the folder of that
    file, a slash and the name, all as they are written; and it is the name itself if the file is
    not known or is written without a folder. So files of one folder look up the same path. -/
theorem names_are_looked_up_as_written (m : String) :
    ((Path.untagged m).toList.head? = some '/' →
      ∀ file, Path.resolve m file = Path.untagged m) ∧
    ((Path.untagged m).toList.head? ≠ some '/' → ∀ folder base : String,
      Path.IsFolder folder.toList → Path.IsFileName base.toList →
        Path.resolve m (some (folder ++ "/" ++ base)) = folder ++ "/" ++ Path.untagged m) ∧
    (∀ file : String, '/' ∉ file.toList →
      Path.resolve m (some file) = Path.untagged m ∧ Path.resolve m none = Path.untagged m) ∧
    ∀ folder base base' : String, Path.IsFolder folder.toList → Path.IsFileName base.toList →
      Path.IsFileName base'.toList →
        Path.resolve m (some (folder ++ "/" ++ base))
          = Path.resolve m (some (folder ++ "/" ++ base')) := by
  have hname : (Path.untagged m).toList = Path.stripTag m.toList := String.toList_ofList
  have hresolve : ∀ folder base : String, Path.IsFolder folder.toList →
      Path.IsFileName base.toList →
        Path.resolve m (some (folder ++ "/" ++ base))
          = String.ofList (Path.join folder.toList (Path.untagged m).toList) := by
    intro folder base hfolder hbase
    have htext : (folder ++ "/" ++ base).toList = folder.toList ++ '/' :: base.toList := by simp
    rw [Path.resolve, Option.bind_some, htext, Path.parent?_append hfolder hbase, hname]
  refine ⟨?_, ?_, ?_, ?_⟩
  · intro hslash file
    rw [hname] at hslash
    rw [Path.resolve]
    split
    · rw [Path.join_of_slash hslash]
      rfl
    · rfl
  · intro hslash folder base hfolder hbase
    rw [hresolve folder base hfolder hbase, Path.join_of_isFolder hfolder hslash]
    refine String.toList_inj.mp ?_
    simp
  · intro file hfile
    refine ⟨?_, rfl⟩
    rw [Path.resolve, Option.bind_some]
    rcases Path.parent?_of_no_slash hfile with hnone | hempty
    · rw [hnone]
      rfl
    · rw [hempty]
      exact congrArg String.ofList (Path.join_nil _)
  · intro folder base base' hfolder hbase hbase'
    rw [hresolve folder base hfolder hbase, hresolve folder base' hfolder hbase']

/-- A name with steps up is put behind a folder with idle steps inside, all as they are written. -/
theorem idle_steps_stay :
    Path.IsFolder "./x//..".toList ∧ Path.IsFileName "y.js".toList ∧
      Path.resolve "../a.json!json" (some "./x//../y.js") = "./x//../../a.json" ∧
      Path.resolve "../a.json!json" (some "./x//../z") = "./x//../../a.json" ∧
      Path.resolve "/a.json" (some "x/y.js") = "/a.json" ∧
      Path.resolve "a//b.json" (some "y.js") = "a//b.json" := by
  have hfolder : Path.IsFolder "./x//..".toList :=
    ⟨by decide +kernel, by decide +kernel, by decide +kernel⟩
  have hbase : Path.IsFileName "y.js".toList :=
    ⟨by decide +kernel, by decide +kernel, by decide +kernel⟩
  have hother : Path.IsFileName "z".toList :=
    ⟨by decide +kernel, by decide +kernel, by decide +kernel⟩
  obtain ⟨-, hbehind, -, halike⟩ := names_are_looked_up_as_written "../a.json!json"
  have hpath : Path.resolve "../a.json!json" (some "./x//../y.js") = "./x//../../a.json" :=
    (hbehind (by decide +kernel) "./x//.." "y.js" hfolder hbase).trans (by decide +kernel)
  refine ⟨hfolder, hbase, hpath, ?_, ?_, ?_⟩
  · exact (halike "./x//.." "z" "y.js" hfolder hother hbase).trans hpath
  · exact (names_are_looked_up_as_written "/a.json").1 (by decide +kernel) (some "x/y.js")
  · exact ((names_are_looked_up_as_written "a//b.json").2.2.1 "y.js" (by decide +kernel)).1

end Inlay
