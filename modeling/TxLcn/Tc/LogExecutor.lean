import TxLcn.Tc.Jdbc

/-!
# The rows of the log

Before it captures the connection, `LcnCommitTransactionJdbcEvent` saves the rows
that its thread's `JdbcTransaction` lists: one after the other, on a connection
that makes each durable at once.

Before it commits, `LcnCommitor` deletes them, with one statement made of their
ids. Whether it is executed is up to the database, which looks at its text.

The table is made when the TC starts. A value that one of its columns has no room
for is rejected or cut, depending on the mode of the database.
-/

namespace TxLcn.Tc

open TxLcn.Lib

/-! ## The table -/

/-- The types of columns. Only of a `varchar` does the number limit what can be stored. -/
inductive ColumnType where
  | bigint (width : Nat)
  | int (width : Nat)
  | varchar (length : Nat)
  deriving Repr, DecidableEq

namespace ColumnType

def text : ColumnType → String
  | bigint width => "bigint(" ++ toString width ++ ")"
  | int width => "int(" ++ toString width ++ ")"
  | varchar length => "varchar(" ++ toString length ++ ")"

/-- The least and the greatest number. -/
def range : ColumnType → Option (Int × Int)
  | bigint _ => some (-2 ^ 63, 2 ^ 63 - 1)
  | int _ => some (-2 ^ 31, 2 ^ 31 - 1)
  | varchar _ => none

end ColumnType

structure Column where
  name : String
  type : ColumnType
  /-- What follows the type. -/
  options : String := "DEFAULT NULL"
  deriving Repr, DecidableEq

def Column.definition (column : Column) : String :=
  "`" ++ column.name ++ "` " ++ column.type.text ++ " " ++ column.options

/-- A value for a placeholder. -/
inductive Param where
  | number (value : Int)
  | text (value : Option String)
  deriving Repr, DecidableEq

def TransactionLog.params (log : TransactionLog) : List Param :=
  [.number log.id.toInt, .text log.groupId, .text (some log.sql), .number log.time,
    .number log.flag]

/-- Whether the value can be stored in the column as it is. -/
def ColumnType.fits (type : ColumnType) : Param → Bool
  | .number value =>
      match type.range with
      | some (least, greatest) => least ≤ value && value ≤ greatest
      | none => false
  | .text none => true
  | .text (some value) =>
      match type with
      | varchar length => value.length ≤ length
      | _ => false

namespace MysqlLogExecutor

def id : Column :=
  { name := "id", type := .bigint 20, options := "NOT NULL AUTO_INCREMENT COMMENT ' '" }

def group_id : Column := { name := "group_id", type := .varchar 40 }

def sql : Column := { name := "sql", type := .varchar 255 }

def time : Column := { name := "time", type := .bigint 20 }

def flag : Column := { name := "flag", type := .int 1 }

def columns : List Column := [id, group_id, sql, time, flag]

def create : String :=
  "\nCREATE TABLE `transaction_log` (\n"
    ++ String.join (columns.map fun column => "  " ++ column.definition ++ ",\n")
    ++ "  PRIMARY KEY (`id`)\n"
    ++ ") ENGINE=InnoDB DEFAULT CHARSET=latin1;\n\n"

def insert : String :=
  "insert into `transaction_log`("
    ++ ",".intercalate (columns.map fun column => "`" ++ column.name ++ "`")
    ++ ") values(" ++ ",".intercalate (columns.map fun _ => "?") ++ ")"

example : columns.map Column.definition = ["`id` bigint(20) NOT NULL AUTO_INCREMENT COMMENT ' '",
    "`group_id` varchar(40) DEFAULT NULL", "`sql` varchar(255) DEFAULT NULL",
    "`time` bigint(20) DEFAULT NULL", "`flag` int(1) DEFAULT NULL"] := by
  decide +kernel

example : insert
    = "insert into `transaction_log`(`id`,`group_id`,`sql`,`time`,`flag`) values(?,?,?,?,?)" := by
  decide +kernel

/-- Whether the row is put into the table with all its values as they are. -/
def keeps (log : TransactionLog) : Bool :=
  (columns.zip log.params).all fun (column, param) => column.type.fits param

end MysqlLogExecutor

/-! ## Saving -/

/-- The rows of `transaction_log`. A row is put there with the `params` of the log. -/
abbrev LogTable := List TransactionLog

/-- Whether it returns: `rejects` says which inserts throw an `SQLException`. -/
def TransactionLogExecutor.saveLog (rejects : LogTable → TransactionLog → Bool) :
    List TransactionLog → LogTable → Bool × LogTable
  | [], table => (true, table)
  | transactionLog :: transactionLogs, table =>
      if rejects table transactionLog then (false, table)
      else saveLog rejects transactionLogs (table ++ [transactionLog])

/-- `LcnCommitTransactionJdbcEvent.execute`, and the rows that it leaves whichever way it ends. -/
def LcnCommitTransactionJdbcEvent.executeOn (rejects : LogTable → TransactionLog → Bool)
    (transactionInfo : TransactionInfo) (jdbcTransaction : Option JdbcTransaction)
    (context : JdbcContext) (table : LogTable) :
    Except (Option TxException) JdbcContext × LogTable :=
  match jdbcTransaction with
  -- there are no logs to be saved without one
  | none => (.error none, table)
  | some current =>
      let (saved, table) := TransactionLogExecutor.saveLog rejects current.transactionLogs table
      (LcnCommitTransactionJdbcEvent.execute transactionInfo jdbcTransaction saved context, table)

/-- How many rows are saved before it throws. -/
def TransactionLogExecutor.saved (rejects : LogTable → TransactionLog → Bool) :
    List TransactionLog → LogTable → Nat
  | [], _ => 0
  | transactionLog :: transactionLogs, table =>
      if rejects table transactionLog then 0
      else saved rejects transactionLogs (table ++ [transactionLog]) + 1

namespace TransactionLogExecutor

variable {rejects : LogTable → TransactionLog → Bool} {transactionLogs : List TransactionLog}
  {table : LogTable}

/-- The rows that have been saved stay. -/
theorem saveLog_table : (saveLog rejects transactionLogs table).2
    = table ++ transactionLogs.take (saved rejects transactionLogs table) := by
  induction transactionLogs generalizing table with
  | nil => rw [saveLog, saved, List.take_zero, List.append_nil]
  | cons transactionLog transactionLogs ih =>
      unfold saveLog saved
      split
      · rw [List.take_zero, List.append_nil]
      · rw [ih, List.take_succ_cons, List.append_assoc, List.singleton_append]

/-- It returns once all are saved. -/
theorem saveLog_returns : (saveLog rejects transactionLogs table).1
    = decide (transactionLogs.length ≤ saved rejects transactionLogs table) := by
  induction transactionLogs generalizing table with
  | nil => rfl
  | cons transactionLog transactionLogs ih =>
      unfold saveLog saved
      split
      · simp
      · rw [ih]
        simp

end TransactionLogExecutor

/-! ## Deleting -/

def JdbcTransaction.logIds (jdbcTransaction : JdbcTransaction) : List Long :=
  jdbcTransaction.transactionLogs.map TransactionLog.id

/-- The text around the ids. -/
def MysqlLogExecutor.deleteIn (id : String) : String :=
  "delete from `transaction_log` where id in (" ++ id ++ ")"

/-- `Joiner.on(",").join(ids)`, between the parentheses. -/
def MysqlLogExecutor.delete (ids : List Long) : String :=
  MysqlLogExecutor.deleteIn (",".intercalate (ids.map fun id => toString id.toInt))

/-- `executes` says of a statement whether it is executed or an `SQLException` is thrown. -/
def TransactionLogExecutor.delete (executes : String → Bool)
    (jdbcTransaction : JdbcTransaction) : Bool :=
  executes (MysqlLogExecutor.delete jdbcTransaction.logIds)

/-- What the raw calls come to, if the connection is open: the deletion is a statement. -/
def LcnCommitor.succeeds (executes : String → Bool) (jdbcTransaction : JdbcTransaction)
    (others : RawCall → Bool) : RawCall → Bool
  | .delete => TransactionLogExecutor.delete executes jdbcTransaction
  | call => others call

/-! ## The grammar of the statement -/

/--
A list of expressions, one or more, separated by commas. The expressions are
made of integer literals and minus signs, before an operand or between two;
`operand` says whether one has just ended.
-/
def exprList (operand : Bool) : List Char → Bool
  | [] => operand
  | c :: rest =>
      if c.isDigit then exprList true rest
      else if c = '-' then exprList false rest
      else c = ',' && operand && exprList false rest

/-- The characters that numbers and lists of them are made of. -/
def numeric (c : Char) : Bool := c.isDigit || c = '-' || c = ','

/--
A database that executes the well-formed ones among the statements that delete
rows of the log by a list of numbers, and rejects the malformed ones.
-/
def ExecutesWellFormed (executes : String → Bool) : Prop :=
  ∀ id : String, id.toList.all numeric = true →
    executes (MysqlLogExecutor.deleteIn id) = exprList false id.toList

/-- What follows `head`, if that ends in a closing parenthesis, has to be a list. -/
def wellFormedIn (head sql : String) : Bool :=
  let body := sql.toList.drop head.toList.length
  body.getLast? = some ')' && exprList false body.dropLast

theorem wellFormedIn_append (head id : String) :
    wellFormedIn head (head ++ id ++ ")") = exprList false id.toList := by
  have hbody : (head ++ id ++ ")").toList.drop head.toList.length = id.toList ++ [')'] := by
    rw [String.toList_append, String.toList_append, List.append_assoc, List.drop_left]
    rfl
  simp only [wellFormedIn, hbody]
  simp

/-- A database that reads nothing but such statements. -/
theorem executesWellFormed_wellFormedIn :
    ExecutesWellFormed (wellFormedIn "delete from `transaction_log` where id in (") :=
  fun id _ => wellFormedIn_append _ id

/-! ## Which lists of ids make a well-formed statement -/

section Grammar

variable {operand : Bool} {c : Char} {ds rest : List Char}

theorem exprList_digit (hc : c.isDigit = true) :
    exprList operand (c :: rest) = exprList true rest := if_pos hc

/-- A literal is an operand. -/
theorem exprList_literal (hne : ds ≠ []) (hds : ∀ d ∈ ds, d.isDigit = true) :
    exprList operand (ds ++ rest) = exprList true rest := by
  induction ds generalizing operand with
  | nil => exact absurd rfl hne
  | cons d ds ih =>
      have hd : d.isDigit = true := hds d List.mem_cons_self
      rw [List.cons_append, exprList_digit hd]
      cases ds with
      | nil => rfl
      | cons d' ds' =>
          exact ih (List.cons_ne_nil d' ds') fun x hx => hds x (List.mem_cons_of_mem d hx)

theorem toDigits_isDigit (n : Nat) : ∀ d ∈ Nat.toDigits 10 n, d.isDigit = true :=
  fun _ hd => Nat.isDigit_of_mem_toDigits (by decide) (by decide) hd

/-- A number is an optional minus sign and a literal. -/
theorem toList_toString_int (x : Int) : ∃ ds, ds ≠ [] ∧ (∀ d ∈ ds, d.isDigit = true) ∧
    ((toString x).toList = ds ∨ (toString x).toList = '-' :: ds) := by
  cases x with
  | ofNat n =>
      refine ⟨Nat.toDigits 10 n, Nat.toDigits_ne_nil, toDigits_isDigit n, Or.inl ?_⟩
      exact Nat.toList_repr
  | negSucc n =>
      refine ⟨Nat.toDigits 10 (n + 1), Nat.toDigits_ne_nil, toDigits_isDigit _, Or.inr ?_⟩
      have htext : toString (Int.negSucc n) = "-" ++ (n + 1).repr := rfl
      rw [htext, String.toList_append, Nat.toList_repr]
      rfl

/-- After a number the list may go on. -/
theorem exprList_int (x : Int) :
    exprList false ((toString x).toList ++ rest) = exprList true rest := by
  obtain ⟨ds, hne, hds, htext | htext⟩ := toList_toString_int x
  · rw [htext, exprList_literal hne hds]
  · have hminus : exprList false ('-' :: (ds ++ rest)) = exprList false (ds ++ rest) := rfl
    rw [htext, List.cons_append, hminus, exprList_literal hne hds]

theorem numeric_int (x : Int) : (toString x).toList.all numeric = true := by
  obtain ⟨ds, _, hds, htext | htext⟩ := toList_toString_int x
  · rw [htext]
    simp +contextual [numeric, hds]
  · rw [htext]
    simp +contextual [numeric, hds]

/-- The ids, as `Joiner` puts them together. -/
theorem exprList_join (ids : List Long) :
    exprList false (",".intercalate (ids.map fun id => toString id.toInt)).toList
      = !ids.isEmpty := by
  induction ids with
  | nil => rfl
  | cons id ids ih =>
      -- a comma has to be followed by another number
      cases ids with
      | nil =>
          have hone : exprList false (toString id.toInt).toList = exprList true [] := by
            rw [← List.append_nil (toString id.toInt).toList, exprList_int]
          rw [List.map_singleton, String.intercalate_singleton, hone]
          rfl
      | cons id' ids' =>
          rw [List.map_cons, List.map_cons, String.intercalate_cons_cons, String.toList_append,
            String.toList_append, List.append_assoc, exprList_int]
          exact ih

theorem numeric_join (ids : List Long) :
    (",".intercalate (ids.map fun id => toString id.toInt)).toList.all numeric = true := by
  induction ids with
  | nil => rfl
  | cons id ids ih =>
      cases ids with
      | nil => rw [List.map_singleton, String.intercalate_singleton, numeric_int]
      | cons id' ids' =>
          rw [List.map_cons, List.map_cons, String.intercalate_cons_cons, String.toList_append,
            String.toList_append, List.all_append, List.all_append, numeric_int]
          exact ih

end Grammar

/-- The statement is executed if there are ids. -/
theorem TransactionLogExecutor.delete_eq {executes : String → Bool}
    (hdb : ExecutesWellFormed executes) (jdbcTransaction : JdbcTransaction) :
    TransactionLogExecutor.delete executes jdbcTransaction
      = !jdbcTransaction.transactionLogs.isEmpty := by
  have hjoin := hdb _ (numeric_join jdbcTransaction.logIds)
  rw [exprList_join] at hjoin
  rw [TransactionLogExecutor.delete, MysqlLogExecutor.delete, hjoin]
  simp [JdbcTransaction.logIds]

end TxLcn.Tc
