import TableBrowser.Proofs.Database.Clock
import TableBrowser.Proofs.Database.Likeness
import TableBrowser.Proofs.Database.Pages
import TableBrowser.Proofs.Database.ZeroFree
import TableBrowser.Proofs.Text.ByteOrder

/-!
# The list of tables

The list has every table once, in the order of the bytes of the names, except those whose names
are hidden, and tells the number of rows that the pages without a filter tell.  The pattern that
is to hide the reserved names ends in an underscore, which stands for any character: it hides
every longer name that begins with the letters in front of it.
-/

namespace TableBrowser

open TableBrowser.Database (Like)
open TableBrowser.Filter TableBrowser.Sql TableBrowser.Paging
open TableBrowser.Text (lower sameLetters sameLetters_iff)

/-! ## Hidden names -/

/-- The name begins with the prefix of reserved names, in any letter case. -/
def IsReserved (name : Text) : Prop :=
  sameLetters (name.take 7) "sqlite_" = true

/-- The name begins with the letters of the prefix, in any letter case, and has more
characters. -/
def IsHidden (name : Text) : Prop :=
  sameLetters (name.take 6) "sqlite" = true ∧ 6 < name.length

instance (name : Text) : Decidable (IsReserved name) :=
  inferInstanceAs (Decidable (_ = _))

instance (name : Text) : Decidable (IsHidden name) :=
  inferInstanceAs (Decidable (_ ∧ _))

theorem length_eq_of_sameLetters {left right : Text} (hsame : sameLetters left right = true) :
    left.length = right.length := by
  have hlength := congrArg List.length (sameLetters_iff.mp hsame)
  rwa [lower, lower, List.length_map, List.length_map] at hlength

/-- Reserved names are hidden. -/
theorem isHidden_of_isReserved {name : Text} (hreserved : IsReserved name) : IsHidden name := by
  have hlength := length_eq_of_sameLetters hreserved
  constructor
  · have hfront := congrArg (·.take 6) (sameLetters_iff.mp hreserved)
    rw [← Text.lower_take, List.take_take] at hfront
    exact sameLetters_iff.mpr hfront
  · have hseven : "sqlite_".toList.length = 7 := rfl
    rw [List.length_take, hseven] at hlength
    omega

/-- What is like the letters, any character and any run begins with the letters and goes on. -/
theorem Database.Like.iff_take {letters t : Text} (hplain : '%' ∉ letters ∧ '_' ∉ letters) :
    Like (letters ++ ['_', '%']) t ↔
      sameLetters (t.take letters.length) letters = true ∧ letters.length < t.length := by
  have hbehind (back : Text) : Like ['_', '%'] back ↔ back ≠ [] := by
    rw [Database.Like.cons_iff (by decide)]
    constructor
    · rintro ⟨c, rest, rfl, -⟩
      exact List.cons_ne_nil c rest
    · intro hne
      obtain ⟨c, rest, rfl⟩ := List.exists_cons_of_ne_nil hne
      exact ⟨c, rest, rfl, .inl rfl, .percent rest⟩
  rw [Like.append_iff]
  constructor
  · rintro ⟨front, back, rfl, hfront, hback⟩
    have hsame := (Like.iff_sameLetters hplain).mp hfront
    have hlength := length_eq_of_sameLetters hsame
    have hpos := List.length_pos_of_ne_nil ((hbehind back).mp hback)
    rw [List.take_left' hlength.symm, List.length_append]
    exact ⟨sameLetters_iff.mpr (sameLetters_iff.mp hsame).symm, by omega⟩
  · rintro ⟨hsame, hlonger⟩
    refine ⟨t.take letters.length, t.drop letters.length, (List.take_append_drop _ t).symm, ?_, ?_⟩
    · exact (Like.iff_sameLetters hplain).mpr (sameLetters_iff.mpr (sameLetters_iff.mp hsame).symm)
    · rw [hbehind, ne_eq, List.drop_eq_nil_iff]
      omega

/-- What is like the pattern are the hidden names. -/
theorem like_pattern_iff (name : Text) : Like "sqlite_%" name ↔ IsHidden name := by
  have hpattern : "sqlite_%".toList = "sqlite".toList ++ ['_', '%'] := by decide
  rw [hpattern, Database.Like.iff_take (by decide)]
  rfl

/-! ## What is relied on of the catalog -/

namespace Connection

/-- The statement for the names of the tables that are not like a pattern. -/
def namesUnlikeText (pattern : Text) : Text :=
  "SELECT name FROM sqlite_master WHERE type = 'table' AND name NOT LIKE '" ++ pattern ++
    "' ORDER BY name"

theorem tableNamesText_eq : tableNamesText = namesUnlikeText "sqlite_%" := by
  decide +kernel

/-- What is documented of the catalog of a database, by the names of its tables at each moment:
those that are not like a pattern are listed, each once, in the order of their bytes in the
encoding of the database. -/
structure ListsTables (connection : Connection) (tables : Int → List Text)
    (encode : Text → List UInt8) : Prop where
  nodup : ∀ moment pattern names,
    connection.texts moment (namesUnlikeText pattern) = .ok names → names.Nodup
  mem_iff : ∀ moment pattern names,
    connection.texts moment (namesUnlikeText pattern) = .ok names →
    ∀ name, name ∈ names ↔ name ∈ tables moment ∧ ¬ Like pattern name
  sorted : ∀ moment pattern names,
    connection.texts moment (namesUnlikeText pattern) = .ok names →
    names.Pairwise fun left right => encode left ≤ encode right

variable {connection : Connection} {clock : Clock} {table : Text} {request : PageRequest}
variable {page : Page}

/-! ## The listing -/

/-- The total of a page is the number that is counted. -/
theorem total_eq_of_page
    (hpage : (connection.source ⟨clock, .done⟩).page table request = .ok page) {count : Int}
    (hcount : connection.number (clock 1) (countText table request.clause?) [] = .ok count) :
    page.total = count.toNat := by
  obtain ⟨hthere, -, ⟨columns, rows⟩, hselects⟩ := statementsRun_of_page hpage
  cases hpage.symm.trans (source_page_of_done (page_eq_ok hthere hcount hselects))
  rfl

/-- The rows of a table that stays as it is are counted alike at all moments. -/
theorem IsSteady.number_eq (hsteady : connection.IsSteady table) (now later : Int) :
    connection.number later (countText table none) [] =
      connection.number now (countText table none) [] := by
  have htyped : IsTypedFilter none := nofun
  obtain ⟨groups?, hreads, hmeans⟩ := readsAs_statementRow true table htyped none false
  rw [rowText_countRow, Option.map_none] at hreads
  refine hsteady.counts _ groups? hreads ?_ now later
  rintro groups rfl
  cases hmeans

theorem exists_mapM_eq_ok {ε α β : Type} {f : α → Except ε β} {related : α → β → Prop}
    {items : List α}
    (hitems : ∀ item ∈ items, ∃ result, f item = .ok result ∧ related item result) :
    ∃ results, items.mapM f = .ok results ∧ List.Forall₂ related items results := by
  induction items with
  | nil => exact ⟨[], rfl, .nil⟩
  | cons first rest ih =>
      obtain ⟨⟨result, hresult, hrelated⟩, hrest⟩ := List.forall_mem_cons.mp hitems
      obtain ⟨results, hresults, hall⟩ := ih hrest
      refine ⟨result :: results, ?_, .cons hrelated hall⟩
      rw [List.mapM_cons, hresult, hresults]
      rfl

/-- The statements of a list of tables are answered with these names. -/
structure TablesRun (connection : Connection) (clock : Clock) (names : List Text) : Prop where
  lists : connection.texts (clock 0) tableNamesText = .ok names
  counts : ∀ index name, names[index]? = some name →
    ∃ count, connection.number (clock (index + 1)) (countText name none) [] = .ok count

/-- A summary tells a name and the number that was counted for it. -/
def Summarizes (connection : Connection) (clock : Clock) (entry : Text × Nat)
    (summary : TableSummary) : Prop :=
  summary.name = entry.1 ∧ ∃ count,
    connection.number (clock (entry.2 + 1)) (countText entry.1 none) [] = .ok count ∧
      summary.rowCount = count.toNat

/-- All names are listed with what was counted for them. -/
theorem TablesRun.exists_tables {names : List Text} (hruns : connection.TablesRun clock names) :
    ∃ summaries, connection.tables clock = .ok summaries ∧
      List.Forall₂ (connection.Summarizes clock) names.zipIdx summaries := by
  rw [tables, hruns.lists]
  refine exists_mapM_eq_ok fun ⟨name, index⟩ hmem => ?_
  obtain ⟨count, hcount⟩ := hruns.counts index name (List.mk_mem_zipIdx_iff_getElem?.mp hmem)
  refine ⟨⟨name, count.toNat⟩, ?_, rfl, count, hcount, rfl⟩
  simp only [countRows, hcount]
  rfl

/-- A list of tables that is done in time is answered. -/
theorem source_tables_of_done {summaries : List TableSummary}
    (htables : connection.tables clock = .ok summaries) (timeoutSeconds? : Option Nat) :
    (connection.source ⟨clock, .done⟩).tables timeoutSeconds? = .ok summaries := by
  rw [source]
  dsimp only
  rw [htables]
  cases timeoutSeconds? <;> rfl

theorem map_name_eq {entries : List (Text × Nat)} {summaries : List TableSummary}
    (hall : List.Forall₂ (connection.Summarizes clock) entries summaries) :
    summaries.map (·.name) = entries.map (·.1) := by
  induction hall with
  | nil => rfl
  | cons hfirst _ ih => rw [List.map_cons, List.map_cons, hfirst.1, ih]

theorem exists_summarizes {names : List Text} {summaries : List TableSummary}
    (hall : List.Forall₂ (connection.Summarizes clock) names.zipIdx summaries) {index : Nat}
    {summary : TableSummary} (hsummary : summaries[index]? = some summary) :
    connection.Summarizes clock (summary.name, index) summary := by
  obtain ⟨hlength, hrelated⟩ := List.forall₂_iff_get.mp hall
  obtain ⟨hlt, heq⟩ := List.getElem?_eq_some_iff.mp hsummary
  have hentry := hrelated index (hlength ▸ hlt) hlt
  simp only [List.get_eq_getElem, List.getElem_zipIdx, heq, Nat.zero_add] at hentry
  obtain ⟨hname, hcount⟩ := hentry
  exact ⟨rfl, hname ▸ hcount⟩

end Connection

namespace Database

open TableBrowser.Text (lowerChar)

/-! ## The tables of a database in memory -/

/-- The names that relations can be made with: what makes one ends at the first zero character,
and is refused if its name is taken in any letter case. -/
structure IsNamed (db : Database) : Prop where
  readable : ∀ relation ∈ db.relations, IsReadable relation.name
  distinct : db.relations.Pairwise fun left right => sameLetters left.name right.name = false

instance (db : Database) : Decidable db.IsNamed :=
  decidable_of_iff ((∀ relation ∈ db.relations, IsReadable relation.name) ∧
      db.relations.Pairwise fun left right => sameLetters left.name right.name = false)
    ⟨fun ⟨hreadable, hdistinct⟩ => ⟨hreadable, hdistinct⟩,
      fun hnamed => ⟨hnamed.readable, hnamed.distinct⟩⟩

variable {db : Database}

/-- The characters that count as none are no letters. -/
theorem lowerChar_likedChar_eq_iff {d : Char} (hd : d.toNat < 128) (c : Char) :
    lowerChar (likedChar c) = d ↔ lowerChar c = d := by
  by_cases hc : c.toNat / 2 = 0x7FFF
  · have hlarge : 128 ≤ c.toNat := by omega
    have hliked : likedChar c = '\uFFFD' := if_pos hc
    rw [hliked, Text.lowerChar_eq_self (by decide), Text.lowerChar_eq_self hlarge]
    refine iff_of_false ?_ ?_ <;> rintro rfl
    · exact absurd hd (by decide)
    · exact absurd hd (Nat.not_lt.mpr hlarge)
  · rw [likedChar, if_neg hc]

theorem lower_map_likedChar_eq_iff {word : Text} (hword : ∀ d ∈ word, d.toNat < 128) {t : Text} :
    lower (t.map likedChar) = word ↔ lower t = word := by
  induction word generalizing t with
  | nil => simp [lower]
  | cons d word ih =>
      obtain ⟨hd, hrest⟩ := List.forall_mem_cons.mp hword
      cases t with
      | nil => exact iff_of_false nofun nofun
      | cons c t =>
          have hliked : lower ((c :: t).map likedChar) =
              lowerChar (likedChar c) :: lower (t.map likedChar) := rfl
          have hlower : lower (c :: t) = lowerChar c :: lower t := rfl
          rw [hliked, hlower, List.cons.injEq, List.cons.injEq, lowerChar_likedChar_eq_iff hd,
            ih hrest]

theorem likedText_of_isReadable {t : Text} (ht : IsReadable t) : likedText t = t.map likedChar := by
  have hall : readableText t = t := readableText_eq_self ht
  rw [likedText, ← readableText, hall]

/-- The listed names are those that are not like the pattern. -/
theorem isUserTable_iff {name : Text} (hname : IsReadable name) :
    isUserTable name = true ↔ ¬ Like "sqlite_%" name := by
  have hpattern : codesOfText "sqlite_%" = ("sqlite" ++ ['_', '%'] : Text).map (·.toNat) := by
    decide +kernel
  have hascii : ∀ d ∈ lower ("sqlite" : Text), d.toNat < 128 := by
    have hall : (lower ("sqlite" : Text)).all (fun d => decide (d.toNat < 128)) = true := by decide
    exact fun d hd => of_decide_eq_true (List.all_eq_true.mp hall d hd)
  rw [isUserTable, Bool.not_eq_true', Bool.eq_false_iff, ne_eq, hpattern, codesOfText_eq,
    matchesPattern_iff, Like.iff_take (by decide), likedText_of_isReadable hname, ← List.map_take,
    List.length_map, sameLetters_iff, lower_map_likedChar_eq_iff hascii, ← sameLetters_iff,
    like_pattern_iff]
  rfl

/-- The order of texts is that of their bytes. -/
theorem toUtf8_lt_of_orderTexts {left right : Text}
    (horder : (Cell.orderTexts left right).isLE = true) (hne : left ≠ right) :
    left.toUtf8 < right.toUtf8 := by
  unfold Cell.orderTexts compareOfLessAndEq at horder
  split at horder
  · next hlt => exact Text.toUtf8_lt_of_codes_lt hlt
  · split at horder
    · next heq =>
        exact absurd (List.map_injective_iff.mpr (fun _ _ => Char.toNat_inj.mp) heq) hne
    · cases horder

/-- The names of tables, in the order in which the tables were made. -/
def plainNames (db : Database) : List Text :=
  db.relations.filterMap fun
    | .table stored => if isUserTable stored.name then some stored.name else none
    | .view .. => none

theorem tableNames_perm (db : Database) : db.tableNames.Perm db.plainNames :=
  List.mergeSort_perm _ _

/-- The name of a relation that is a table. -/
def Relation.tableName? : Relation → Option Text
  | .table stored => some stored.name
  | .view .. => none

theorem mem_tableNames_iff (hnamed : db.IsNamed) {name : Text} :
    name ∈ db.tableNames ↔
      name ∈ db.relations.filterMap Relation.tableName? ∧ ¬ Like "sqlite_%" name := by
  rw [db.tableNames_perm.mem_iff, plainNames, List.mem_filterMap, List.mem_filterMap]
  constructor
  · rintro ⟨relation, hmem, hname⟩
    cases relation with
    | view => cases hname
    | table stored =>
        dsimp only at hname
        split at hname
        · next huser =>
            cases hname
            exact ⟨⟨_, hmem, rfl⟩, (isUserTable_iff (hnamed.readable _ hmem)).mp huser⟩
        · cases hname
  · rintro ⟨⟨relation, hmem, hname⟩, hplain⟩
    cases relation with
    | view => cases hname
    | table stored =>
        cases hname
        exact ⟨_, hmem, if_pos ((isUserTable_iff (hnamed.readable _ hmem)).mpr hplain)⟩

theorem nodup_plainNames (hnamed : db.IsNamed) : db.plainNames.Nodup := by
  have hname {relation : Relation} {name : Text}
      (hsome : (match relation with
        | .table stored => if isUserTable stored.name then some stored.name else none
        | .view .. => none) = some name) : relation.name = name := by
    cases relation with
    | view => cases hsome
    | table stored =>
        dsimp only at hsome
        split at hsome
        · exact Option.some.inj hsome
        · cases hsome
  refine List.Pairwise.filterMap _ ?_ hnamed.distinct
  rintro left right hdiffers name hleft other hright rfl
  rw [hname hleft, hname hright, sameLetters_iff.mpr rfl] at hdiffers
  cases hdiffers

theorem pairwise_tableNames (hnamed : db.IsNamed) :
    db.tableNames.Pairwise fun left right => left.toUtf8 < right.toUtf8 := by
  have hsorted : db.tableNames.Pairwise fun left right =>
      (Cell.orderTexts left right).isLE = true :=
    (Cell.pairwise_mergeSort_isLE Cell.text db.plainNames).imp fun hle =>
      (Cell.order_isLE_iff _ _).mpr hle
  have hnodup : db.tableNames.Nodup := db.tableNames_perm.nodup_iff.mpr (nodup_plainNames hnamed)
  exact (hsorted.and hnodup).imp fun ⟨hle, hne⟩ => toUtf8_lt_of_orderTexts hle hne

/-- A database in memory lists its tables as it is documented. -/
theorem connection_listsTables (hnamed : db.IsNamed) :
    db.connection.ListsTables (fun _ => db.relations.filterMap Relation.tableName?)
      Text.toUtf8 := by
  -- No other statement than the one that a list asks is answered with names.
  have hlisted {moment : Int} {pattern : Text} {names : List Text}
      (hlists : db.connection.texts moment (Connection.namesUnlikeText pattern) = .ok names) :
      pattern = "sqlite_%".toList ∧ names = db.tableNames := by
    simp only [connection, Connection.tableNamesText_eq] at hlists
    split at hlists
    · next hsame =>
        exact ⟨List.append_cancel_left (List.append_cancel_right hsame),
          (Except.ok.inj hlists).symm⟩
    · cases hlists
  refine ⟨?_, ?_, ?_⟩
  · intro moment pattern names hlists
    obtain ⟨-, rfl⟩ := hlisted hlists
    exact db.tableNames_perm.nodup_iff.mpr (nodup_plainNames hnamed)
  · intro moment pattern names hlists name
    obtain ⟨rfl, rfl⟩ := hlisted hlists
    exact mem_tableNames_iff hnamed
  · intro moment pattern names hlists
    obtain ⟨-, rfl⟩ := hlisted hlists
    exact (pairwise_tableNames hnamed).imp fun hlt => List.le_of_lt hlt

/-- Tables with marks in their names and with names that are almost reserved, and a view. -/
def oddNames : Database :=
  ⟨[.table (.ofRows "odd \"name\"" [⟨"x", "INTEGER"⟩] [[.integer 1]]),
    .table (.ofRows "SQLite" [⟨"x", "INTEGER"⟩] []), .view "all" "SQLite",
    .table (.ofRows "sqlitedata" [⟨"x", "INTEGER"⟩] [[.integer 1], [.integer 2]]),
    .table (.ofRows "b%_" [⟨"x", "INTEGER"⟩] [])], []⟩

theorem oddNames_isNamed : oddNames.IsNamed := by
  decide +kernel

theorem oddNames_tablesRun : oddNames.connection.TablesRun (atOnce 0) oddNames.tableNames := by
  have hcounts : ∀ name ∈ oddNames.relations.filterMap Relation.tableName?,
      (oddNames.connection.number 0 (countText name none) []).toOption.isSome = true := by
    decide +kernel
  refine ⟨rfl, fun index name hname => Connection.exists_eq_ok_iff.mpr (hcounts name ?_)⟩
  exact ((mem_tableNames_iff oddNames_isNamed).mp (List.mem_of_getElem? hname)).1

end Database

end TableBrowser
