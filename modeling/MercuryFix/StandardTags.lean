import MercuryFix.FixMsgTypes

/-!
# Standard tags

The tables of tags and their types, one for each version.  A tag that a table holds
twice has the type of its last entry, as it has in the map that `init` fills from
the table.  So the tables of FIX 5.0 and of its service packs are written as what
they change in the version before.
-/

namespace MercuryFix

inductive FixType
  | int
  | length
  | tagNum
  | seqNum
  | numInGroup
  | dayOfMonth
  | float
  | qty
  | price
  | priceOffset
  | amt
  | percentage
  | char
  | boolean
  | string
  | multipleCharValue
  | multipleStringValue
  | country
  | currency
  | exchange
  | monthYear
  | utcTimestamp
  | utcTimeOnly
  | utcDateOnly
  | localMktDate
  | tzTimeOnly
  | tzTimestamp
  | data
  | pattern
  | tenor
  | reserved100Plus
  | reserved1000Plus
  | reserved4000Plus
  | xmlData
  | language
  deriving DecidableEq

def consecutive (first : Nat) : List FixType → List (Nat × FixType)
  | [] => []
  | type :: types => (first, type) :: consecutive (first + 1) types

def tagRuns (runs : List (Nat × List FixType)) : List (Nat × FixType) :=
  runs.flatMap fun run => consecutive run.1 run.2

def fix40StdTags : List (Nat × FixType) :=
  tagRuns [
    (1, [.char, .int, .int, .char, .char, .float, .int, .char, .int, .char, .char,
      .float, .char, .int, .char, .int, .int, .char, .int, .char, .char, .char, .int,
      .char, .char, .int, .char, .char, .char, .char, .float, .int, .int, .int,
      .char, .int, .char, .int, .char, .char, .char, .utcTimestamp, .char, .float,
      .int, .char, .char, .char, .char, .char]),
    (52, [.utcTimestamp, .int, .char, .char, .char, .char, .char, .char,
      .utcTimestamp, .char, .utcTimestamp, .char, .localMktDate, .char, .char, .int,
      .int, .char, .int, .char, .int, .int, .int, .localMktDate, .char, .char, .int,
      .char, .int, .char, .int, .int, .int, .int, .char, .int, .int, .data, .length,
      .data, .char, .length, .char, .length, .data, .char, .int, .float, .char]),
    (102, [.int, .int, .char, .char, .char, .char, .int, .char, .int, .int, .char,
      .char, .char, .char, .char, .char, .float, .float, .char, .char, .utcTimestamp,
      .char, .int, .char, .utcTimestamp, .char, .char, .char, .char, .char, .float,
      .float, .int, .int, .int, .float, .char, .char, .float])]

def fix41StdTags : List (Nat × FixType) :=
  tagRuns [
    (1, [.char, .char, .char, .char, .char, .float, .int, .char, .int, .char,
      .char, .float, .char, .int, .char, .int, .char, .char, .char, .char, .char,
      .char, .char, .char, .char, .char, .char, .char, .char, .char, .float, .int,
      .int, .int, .char, .int, .char, .int, .char, .char, .char, .utcTimestamp,
      .char, .float, .int, .char, .char, .char, .char, .char]),
    (52, [.utcTimestamp, .int, .char, .char, .char, .char, .char, .char,
      .utcTimestamp, .char, .utcTimestamp, .char, .localMktDate, .char, .char, .int,
      .int, .char, .char, .char, .char, .int, .int, .localMktDate, .char, .char,
      .int, .char, .int, .char, .int, .int, .int]),
    (87, [.int, .int, .data, .length, .data, .char, .length, .char, .length, .data,
      .char, .int, .float, .char]),
    (102, [.int, .int, .char, .char, .char, .char, .int, .char, .int, .int, .char,
      .char, .char, .char, .char, .char, .float, .float, .char, .char, .utcTimestamp,
      .char, .int]),
    (126, [.utcTimestamp, .char, .char, .char, .char, .char, .float, .float, .int,
      .int, .int, .float, .char, .char, .float, .char, .char, .char, .char, .char,
      .int, .char, .char, .char, .char, .int, .float, .float, .float, .float, .char,
      .int, .float, .float, .char, .char, .char, .char, .char, .char, .char, .char,
      .utcTimestamp, .int, .char, .char, .int, .char, .char, .char, .char, .char,
      .char, .char, .char, .char, .char, .char, .char, .char, .char, .char, .float,
      .float, .float, .float, .float, .localMktDate, .float, .float, .char, .int,
      .char, .int, .monthYear, .int, .float, .int, .int, .dayOfMonth, .char, .char,
      .char, .int, .int, .float])]

def fix42StdTags : List (Nat × FixType) :=
  tagRuns [
    (1, [.string, .string, .string, .char, .string, .price, .int, .string, .int,
      .string, .string, .amt, .char, .qty, .currency, .int, .string,
      .multipleCharValue, .string, .char, .char, .string, .string, .char, .char,
      .string, .string, .char, .char, .exchange, .price, .qty, .int, .int, .string,
      .int, .string, .qty, .char, .char, .string, .utcTimestamp, .boolean, .price,
      .int, .string, .char, .string, .string, .string, .localMktDate, .utcTimestamp,
      .qty, .char, .string, .string, .string, .string, .char, .utcTimestamp, .char,
      .utcTimestamp, .char, .localMktDate, .string, .string, .int, .int, .string,
      .string, .char, .string, .int, .int, .localMktDate, .string, .char, .int,
      .string, .qty, .char, .int, .int, .qty, .int, .string, .int, .int, .data,
      .length, .data, .string, .length, .char, .length, .data, .boolean, .int,
      .price, .exchange]),
    (102, [.int, .int, .char, .string, .string, .string, .int, .string, .qty, .qty,
      .string, .boolean, .boolean, .string, .string, .string, .amt, .amt, .currency,
      .boolean, .utcTimestamp, .boolean, .int, .char, .utcTimestamp, .char, .string,
      .string, .boolean, .string, .price, .price, .qty, .qty, .int, .amt, .currency,
      .char, .price, .boolean, .string, .string, .string, .string, .int, .string,
      .string, .string, .char, .qty, .qty, .price, .amt, .float, .char, .int, .float,
      .amt, .char, .string, .string, .char, .string, .char, .string, .string,
      .utcTimestamp, .int, .string, .string, .int, .string, .string, .string,
      .string, .string, .string, .string, .string, .string, .string, .string,
      .string, .string, .string, .string, .price, .price, .price, .price, .qty,
      .localMktDate, .price, .price, .string, .int, .string, .int, .monthYear, .int,
      .price, .int, .int, .dayOfMonth, .char, .exchange, .boolean, .int, .qty,
      .price, .length, .data, .string, .int, .int, .string, .price, .char]),
    (223, [.float]), (231, [.float]),
    (262, [.string, .char, .int, .int, .boolean, .int, .int, .char, .price, .qty,
      .utcDateOnly, .utcTimeOnly, .char, .exchange, .multipleStringValue,
      .multipleStringValue, .string, .char, .string, .char, .string, .string,
      .string, .char, .char, .int, .string, .string, .int, .char, .char, .qty, .qty,
      .int, .int, .int, .int, .string, .int, .int, .string, .int, .int, .string,
      .string, .string, .exchange, .string, .string, .string, .string, .monthYear,
      .dayOfMonth, .int, .price, .char, .currency, .qty, .string, .int, .string,
      .int, .string, .boolean, .int, .char, .boolean, .boolean, .qty, .qty, .price,
      .price, .int, .string, .string, .string, .int, .int, .int, .utcTimestamp,
      .utcTimestamp, .utcTimestamp, .utcTimestamp, .utcTimestamp, .int, .string,
      .length, .data, .length, .data, .length, .data, .length, .data, .length, .data,
      .length, .data, .length, .data, .length, .data, .length, .data, .price,
      .utcTimestamp, .int, .int, .utcTimestamp, .int, .string, .int, .char, .string,
      .string, .boolean, .int, .string, .int, .amt, .int, .int, .int, .char, .int,
      .qty, .char, .price, .string, .string, .string, .int, .int, .int, .amt, .amt,
      .int, .int, .string, .int, .float, .float, .amt, .float, .amt, .float, .amt,
      .int, .float, .boolean, .amt, .float, .int, .int, .int, .int, .char, .char,
      .int, .string, .int, .int, .qty, .qty, .price, .int, .int, .int, .int, .int,
      .localMktDate, .char, .char, .float, .float, .qty, .utcTimestamp, .string,
      .string, .int, .char, .utcTimestamp, .string, .length, .data])]

def fix43StdTags : List (Nat × FixType) :=
  tagRuns [
    (1, [.string, .string, .string, .char, .string, .price, .seqNum, .string,
      .length, .string, .string, .amt, .char, .qty, .currency, .seqNum, .string,
      .multipleCharValue, .string]),
    (21, [.char, .string, .string]),
    (25, [.char, .string, .string, .char, .char, .exchange, .price, .qty,
      .numInGroup, .seqNum, .string, .seqNum, .string, .qty, .char, .char, .string,
      .utcTimestamp, .boolean, .price, .seqNum]),
    (47, [.char, .string, .string, .string]),
    (52, [.utcTimestamp, .qty, .char, .string, .string, .string, .string, .char,
      .utcTimestamp, .char, .utcTimestamp, .char, .localMktDate, .string, .string,
      .int, .int, .string, .string, .char, .string, .numInGroup, .int,
      .localMktDate]),
    (77, [.char, .numInGroup, .string, .qty, .char, .numInGroup, .int, .qty]),
    (87, [.int, .int, .data, .length, .data]),
    (93, [.length, .char, .length, .data, .boolean, .int, .price, .exchange]),
    (102, [.int, .int, .char]), (106, [.string, .string, .int]),
    (110, [.qty, .qty, .string, .boolean, .boolean, .string, .string, .string,
      .amt, .amt, .currency, .boolean, .utcTimestamp, .boolean, .numInGroup]),
    (126, [.utcTimestamp, .char, .string, .string, .boolean, .string, .price,
      .price, .qty, .qty, .numInGroup, .amt, .currency, .char, .price, .boolean,
      .string, .string, .string, .string, .numInGroup, .string, .string, .string,
      .char, .qty, .qty, .price, .amt, .float, .char, .int, .percentage, .amt, .char,
      .string, .string, .char, .string, .char]),
    (167, [.string, .utcTimestamp, .int, .string, .string, .int, .string, .string,
      .string, .string, .string, .string, .string, .string, .string, .string,
      .string, .string, .string, .string, .string, .price, .price, .price, .price,
      .qty, .localMktDate, .price, .price, .string, .int, .string, .numInGroup,
      .monthYear]),
    (202, [.price, .int]),
    (206, [.char, .exchange, .boolean, .int, .qty, .price, .length, .data, .string,
      .numInGroup, .int, .string, .price, .char, .currency, .string, .string,
      .percentage, .utcDateOnly, .utcDateOnly, .int, .percentage, .float,
      .utcDateOnly, .utcDateOnly, .float, .numInGroup, .string, .string, .string,
      .percentage, .amt, .amt, .string, .utcDateOnly, .utcDateOnly, .utcDateOnly,
      .string, .int, .percentage, .float, .utcDateOnly, .utcDateOnly, .utcDateOnly,
      .string, .int, .percentage, .float, .utcDateOnly, .string, .string, .string,
      .boolean, .utcDateOnly, .price]),
    (262, [.string, .char, .int, .int, .boolean, .numInGroup, .numInGroup, .char,
      .price, .qty, .utcDateOnly, .utcTimeOnly, .char, .exchange,
      .multipleStringValue, .multipleStringValue, .string, .char, .string, .char,
      .string, .string, .string, .char, .multipleStringValue, .int, .string, .string,
      .int, .multipleStringValue, .multipleStringValue, .qty, .qty, .numInGroup,
      .numInGroup, .int, .int, .string, .int, .int, .string, .int, .int, .string,
      .string, .string, .exchange, .string, .string, .string, .string, .monthYear]),
    (315, [.int, .price, .char]),
    (320, [.string, .int, .string, .int, .string, .boolean, .int, .char, .boolean,
      .boolean, .qty, .qty, .price, .price, .int, .string, .string, .string, .int,
      .int, .int, .utcTimestamp, .utcTimestamp, .utcTimestamp, .utcTimestamp,
      .utcTimestamp, .int, .string, .length, .data, .length, .data, .length, .data,
      .length, .data, .length, .data, .length, .data, .length, .data, .length, .data,
      .length, .data, .price, .utcTimestamp, .int, .seqNum, .utcTimestamp, .int,
      .string, .int, .char, .string, .string, .boolean, .int, .string, .int, .amt,
      .numInGroup, .length, .numInGroup, .char, .numInGroup, .qty, .char, .price,
      .string, .string, .string, .int, .int, .int, .amt, .amt, .numInGroup, .int,
      .string, .int, .percentage, .percentage, .amt, .percentage, .amt, .percentage,
      .amt, .int, .percentage, .boolean, .amt, .percentage, .int, .int, .int, .int,
      .char, .char, .numInGroup, .country, .int, .int, .qty, .qty, .price, .int,
      .numInGroup, .int, .int, .int, .localMktDate, .char, .char, .percentage,
      .float, .qty, .utcTimestamp]),
    (441, [.int, .char, .utcTimestamp, .string, .length, .data, .char, .string,
      .utcDateOnly, .utcTimeOnly, .price, .int, .numInGroup, .numInGroup, .string,
      .string, .numInGroup, .string, .string, .int, .string, .int, .string, .boolean,
      .int, .string, .string, .char, .float, .country, .string, .string, .numInGroup,
      .string, .country, .string, .int, .currency, .currency, .char, .char, .string,
      .utcTimestamp, .char, .float, .localMktDate, .char, .string, .string,
      .localMktDate, .string, .int, .string, .string, .int, .string, .char, .string,
      .string, .string, .string]),
    (503, [.localMktDate, .localMktDate, .string, .char, .int, .string, .string,
      .numInGroup, .string, .percentage, .string, .char, .utcTimestamp, .percentage,
      .char, .numInGroup, .int, .float, .currency, .int, .string, .string, .char,
      .string, .string, .char, .multipleStringValue, .char, .char, .char, .int,
      .numInGroup, .string, .string, .int, .int, .numInGroup, .amt, .localMktDate,
      .localMktDate, .string, .char, .string, .multipleStringValue, .boolean,
      .string, .int, .int, .string, .numInGroup, .string, .string, .numInGroup,
      .currency, .int, .numInGroup, .int, .int, .qty, .qty, .int, .char, .int,
      .price, .int, .string, .int, .boolean, .string, .string, .char, .string,
      .boolean, .int, .int, .string, .string, .numInGroup, .int, .int, .string,
      .string, .int, .utcTimestamp, .char, .localMktDate, .char, .char, .char,
      .country, .string, .string, .string, .country, .string, .string, .string,
      .string, .string, .string, .string, .numInGroup, .string, .string, .int,
      .string, .string, .monthYear, .localMktDate, .price, .char, .float,
      .percentage, .exchange, .string, .length, .data, .string, .length, .data,
      .float, .char, .string, .int, .numInGroup, .string, .utcTimestamp, .seqNum,
      .price, .percentage, .percentage, .percentage, .string, .boolean, .price, .int,
      .price, .price, .price, .price, .price, .string, .price, .price, .qty, .qty,
      .string, .boolean, .price, .qty]),
    (654, [.string, .string, .float, .float, .int, .string])]

def fix44StdTags : List (Nat × FixType) :=
  tagRuns [
    (1, [.string, .string, .string, .char, .string, .price, .seqNum, .string,
      .length, .string, .string, .amt, .char, .qty, .currency, .seqNum, .string,
      .multipleCharValue, .string]),
    (21, [.char, .string, .string]),
    (25, [.char, .string, .string, .char, .char, .exchange, .price, .qty,
      .numInGroup, .seqNum, .string, .seqNum, .string, .qty, .char, .char, .string,
      .utcTimestamp, .boolean, .price, .seqNum]),
    (48, [.string, .string, .string]),
    (52, [.utcTimestamp, .qty, .char, .string, .string, .string, .string, .char,
      .utcTimestamp, .char, .utcTimestamp, .char, .localMktDate, .string, .string,
      .int, .int, .string, .string, .char, .string, .numInGroup, .int,
      .localMktDate]),
    (77, [.char, .numInGroup, .string, .qty, .char, .int, .int, .qty, .numInGroup]),
    (87, [.int, .int, .data, .length, .data]),
    (93, [.length, .char, .length, .data, .boolean, .int, .price, .exchange]),
    (102, [.int, .int, .char]), (106, [.string, .string, .int]),
    (110, [.qty, .qty, .string, .boolean, .boolean, .string, .string, .string,
      .amt, .amt, .currency, .boolean, .utcTimestamp, .boolean, .numInGroup]),
    (126, [.utcTimestamp, .char, .string, .string, .boolean, .string, .price,
      .price, .qty, .qty, .numInGroup, .amt, .currency, .char, .price, .boolean,
      .string, .string, .string, .string, .numInGroup, .string, .string, .string,
      .char, .qty, .qty, .price, .amt, .float, .char, .int, .percentage, .amt, .char,
      .string, .string, .char, .string, .char]),
    (167, [.string, .utcTimestamp, .int, .string, .string, .int]),
    (188, [.price, .price, .price, .price, .qty, .localMktDate, .price, .price,
      .string, .int, .string, .numInGroup, .monthYear, .int, .price, .int]),
    (206, [.char, .exchange, .boolean, .int, .qty, .float, .length, .data, .string,
      .numInGroup, .int, .string, .price]),
    (220, [.currency, .string, .string, .percentage, .localMktDate, .localMktDate,
      .int, .percentage, .float, .localMktDate, .localMktDate, .float, .numInGroup,
      .string, .string, .string, .percentage, .amt, .amt, .string, .localMktDate,
      .localMktDate, .localMktDate, .string, .int, .percentage, .float,
      .localMktDate, .localMktDate, .localMktDate, .string, .int, .percentage,
      .float, .localMktDate, .string, .string, .string, .boolean, .localMktDate,
      .price]),
    (262, [.string, .char, .int, .int, .boolean, .numInGroup, .numInGroup, .char,
      .price, .qty, .utcDateOnly, .utcTimeOnly, .char, .exchange,
      .multipleStringValue, .multipleStringValue, .string, .char, .string, .char,
      .string, .string, .string, .char, .multipleStringValue, .int, .string, .string,
      .int, .multipleStringValue, .multipleStringValue, .qty, .qty, .numInGroup,
      .numInGroup, .int, .int, .string, .int, .int, .string, .int, .int, .string,
      .string, .string, .exchange, .string, .string, .string, .string, .monthYear]),
    (315, [.int, .price, .char, .currency]),
    (320, [.string, .int, .string, .int, .string, .boolean, .int, .char, .boolean,
      .boolean, .qty, .qty, .price, .price, .int, .string, .string, .string, .int,
      .int, .int, .utcTimestamp, .utcTimestamp, .utcTimestamp, .utcTimestamp,
      .utcTimestamp, .int, .string, .length, .data, .length, .data, .length, .data,
      .length, .data, .length, .data, .length, .data, .length, .data, .length, .data,
      .length, .data, .price, .utcTimestamp, .int, .seqNum]),
    (371, [.int, .string, .int, .char, .string, .string, .boolean, .int, .string,
      .int, .amt, .numInGroup, .length, .numInGroup, .char, .numInGroup, .qty, .char,
      .float, .string, .string, .string, .int, .int, .int, .amt, .amt, .numInGroup,
      .int, .string, .int, .percentage, .percentage, .amt, .percentage, .amt,
      .percentage, .amt, .int, .percentage, .boolean, .amt, .percentage, .int, .int,
      .int, .int, .char, .char, .numInGroup, .country, .int, .int, .qty, .qty,
      .price, .int, .numInGroup, .int, .int, .int, .localMktDate, .char, .char,
      .percentage, .float, .qty, .utcTimestamp]),
    (441, [.int, .char, .utcTimestamp, .string, .length, .data, .char, .string]),
    (451, [.price, .int, .numInGroup, .numInGroup, .string, .string, .numInGroup,
      .string, .string, .int, .string, .int, .string, .boolean]),
    (466, [.string, .string, .char, .float, .country, .string, .string,
      .numInGroup, .string, .country, .string, .int, .currency, .currency, .char,
      .char, .string, .utcTimestamp, .char, .float, .localMktDate, .int, .string,
      .string, .localMktDate, .string, .int, .string, .string, .int, .string, .char,
      .string, .string, .string, .string, .string, .localMktDate, .localMktDate,
      .string, .char, .int, .string, .string, .numInGroup, .string, .percentage,
      .string, .char, .utcTimestamp, .percentage, .char, .numInGroup, .int, .float,
      .currency, .int, .string, .string, .char, .string, .string, .char,
      .multipleStringValue, .char, .char, .char, .int, .numInGroup, .string, .string,
      .int, .int, .numInGroup, .amt, .localMktDate, .localMktDate, .string, .char,
      .string, .multipleStringValue, .boolean, .string, .int, .int, .string,
      .numInGroup, .string, .string, .numInGroup, .currency, .int, .numInGroup, .int,
      .int, .qty, .qty, .int, .char, .int, .price, .int, .string, .int, .boolean,
      .string, .string, .char, .string, .boolean, .numInGroup, .int, .string,
      .string, .numInGroup, .int, .int, .string, .string, .int, .utcTimestamp, .char,
      .localMktDate, .char, .char, .char, .country, .string, .string, .string,
      .country, .string, .string, .string, .string, .string, .string, .string,
      .numInGroup, .string, .string, .int, .string, .string, .monthYear,
      .localMktDate, .price, .char, .float, .percentage, .exchange, .string, .length,
      .data, .string, .length, .data, .float, .char, .string, .int, .numInGroup,
      .string, .utcTimestamp, .seqNum, .price, .percentage, .percentage, .percentage,
      .string, .boolean, .price, .int, .price, .price, .price, .price, .price,
      .string, .price, .price, .qty, .qty, .string, .boolean, .price, .qty]),
    (654, [.string, .string, .float, .float, .int, .string, .int, .int, .price,
      .int, .string, .int, .int, .monthYear, .int, .price, .numInGroup, .string,
      .string, .qty, .string, .currency, .currency, .string, .string, .price, .int,
      .price, .string, .numInGroup, .price]),
    (686, [.int, .qty, .string, .string, .int, .string, .int, .string, .int, .char,
      .localMktDate, .price, .int, .string, .boolean, .localMktDate, .numInGroup,
      .string, .qty, .qty, .int, .string, .amt, .int, .string, .numInGroup, .int,
      .string, .string, .localMktDate, .string, .string, .int, .boolean, .boolean,
      .string, .int, .int, .int, .int, .string, .int, .int, .int, .price, .int,
      .price, .int, .price, .numInGroup, .currency, .amt, .amt, .localMktDate,
      .string, .amt, .amt, .localMktDate, .char, .qty, .amt, .char, .int, .int, .int,
      .int, .int, .numInGroup, .boolean, .string, .numInGroup, .string, .char, .int,
      .string, .string, .string, .string, .string, .percentage, .amt, .currency,
      .numInGroup, .utcTimestamp, .int, .string, .string, .int, .int, .int, .int,
      .string, .numInGroup, .utcTimestamp, .int, .numInGroup, .string, .char, .int,
      .string, .int, .char, .int, .seqNum, .string, .string, .int, .string, .int,
      .string, .int, .boolean, .int, .price, .qty, .numInGroup, .numInGroup, .int,
      .numInGroup, .int, .numInGroup, .int, .int]),
    (810, [.price, .float, .int, .int, .int, .int, .numInGroup, .string, .string,
      .int, .string, .string, .string, .string, .string, .string, .int, .int, .int,
      .int, .string]),
    (832, [.int, .string, .price, .int, .int, .int, .int, .price, .int, .int, .int,
      .int, .int, .price, .int, .int, .string, .percentage, .float, .int, .boolean,
      .int, .int, .int, .int, .int, .amt, .string, .price, .price, .numInGroup, .qty,
      .numInGroup, .int, .localMktDate, .price, .string, .percentage, .numInGroup,
      .int, .string, .localMktDate, .localMktDate, .int, .string, .string, .string,
      .qty, .string, .string, .price, .price, .amt, .amt, .amt, .numInGroup, .string,
      .string, .amt, .int, .int, .boolean, .string, .int, .int, .numInGroup,
      .percentage, .amt, .amt, .amt, .string, .int, .string, .int, .int, .string,
      .string, .string, .int, .int, .boolean, .string, .string, .localMktDate,
      .localMktDate, .localMktDate, .currency, .int, .amt, .amt, .amt, .string, .int,
      .string, .int, .string, .int, .string, .string, .string, .string, .string,
      .string, .int, .numInGroup, .int, .numInGroup, .int, .int, .currency,
      .currency, .string, .int, .int, .int, .currency, .numInGroup, .string, .char,
      .int, .numInGroup, .string, .int, .monthYear, .localMktDate])]

/-- `fix50_std_tags`: the tags of the version before, eight of them with
another type, and new ones. -/
def fix50StdTags : List (Nat × FixType) :=
  fix44StdTags ++ tagRuns [
    (63, [.string]), (139, [.string]), (286, [.multipleCharValue]),
    (291, [.multipleCharValue, .multipleCharValue]), (529, [.multipleCharValue]),
    (532, [.int]), (546, [.multipleCharValue]), (685, [.qty]),
    (957, [.numInGroup, .string, .int, .string, .string, .utcTimestamp, .int, .int,
      .string, .string, .float, .float, .float, .int, .int, .percentage, .amt,
      .string, .int, .localMktDate, .string, .boolean, .string, .char, .numInGroup,
      .int, .qty, .numInGroup, .amt, .amt, .localMktDate, .string, .string, .string,
      .price, .int, .string, .string]),
    (996, [.string, .string, .string, .string, .string, .string, .int, .string]),
    (1005, [.string, .string, .string, .int, .int]),
    (1011, [.string, .utcTimestamp, .int, .string, .char, .numInGroup, .float,
      .numInGroup, .string, .qty, .int, .string, .int, .int, .price, .float, .price,
      .boolean, .boolean, .string, .multipleStringValue, .int, .string, .int,
      .multipleStringValue, .char, .amt, .amt, .string, .string, .string, .string,
      .int, .qty, .float, .char, .char, .price, .char, .char, .int, .numInGroup,
      .string, .int, .string, .qty, .boolean, .numInGroup, .string, .char, .int,
      .numInGroup, .string, .int, .price, .price, .price, .price, .price, .int,
      .price, .amt, .price, .qty, .amt]),
    (1079, [.tzTimeOnly, .string, .char, .qty, .char, .char, .qty, .qty, .qty,
      .qty, .qty, .int, .boolean, .char, .char, .int, .price, .string, .string,
      .string, .string, .char, .char, .price, .string, .string, .string, .string,
      .char, .char, .char, .price, .char, .qty, .string, .string, .char, .numInGroup,
      .string, .char, .int, .numInGroup, .string, .int, .char, .char, .localMktDate,
      .string, .string, .string, .string, .string, .string, .tzTimestamp, .char,
      .boolean, .string, .string, .string, .qty, .string])]

/-- `fix50sp1_std_tags`: the tags of the version before, and new ones. -/
def fix50SP1StdTags : List (Nat × FixType) :=
  fix50StdTags ++ tagRuns [
    (1140, [.qty, .numInGroup, .string, .float, .int, .utcTimestamp, .amt, .qty,
      .price, .price, .price, .string, .int, .int, .currency, .currency, .int, .amt,
      .numInGroup, .int, .string, .string, .char, .string, .char, .numInGroup,
      .string, .int, .int, .int, .int, .boolean, .int, .int, .int, .numInGroup, .int,
      .numInGroup, .int, .qty, .string, .seqNum, .seqNum, .seqNum, .length, .xmlData,
      .string, .boolean, .float, .float, .float, .string, .qty, .char, .int, .amt,
      .string, .string, .int, .price, .price, .numInGroup, .price, .price, .float,
      .numInGroup, .price, .price, .price, .int, .int, .string, .tzTimeOnly,
      .tzTimeOnly, .string, .string, .string, .string, .numInGroup, .string, .string,
      .price, .string, .string, .qty, .amt, .monthYear, .string, .string, .int,
      .price, .qty, .numInGroup]),
    (1234, [.numInGroup, .numInGroup, .numInGroup, .numInGroup]),
    (1239, [.numInGroup, .price, .monthYear, .boolean, .boolean, .boolean,
      .currency, .int, .string, .string, .string, .string, .monthYear, .localMktDate,
      .tzTimeOnly, .string, .char, .string, .string, .country, .string, .string,
      .price, .currency, .float, .float, .char, .float, .float, .amt, .string, .qty,
      .string, .exchange, .int, .int, .string, .localMktDate, .length, .data,
      .string, .length, .data, .length, .data, .string, .monthYear, .numInGroup,
      .int, .localMktDate, .utcTimestamp, .price, .string, .numInGroup, .string,
      .string, .int, .numInGroup, .string, .int, .char, .string, .exchange, .int,
      .int, .int, .int, .int]),
    (1308, [.char, .numInGroup, .numInGroup, .numInGroup, .numInGroup, .int,
      .string, .string, .qty, .char, .string, .string, .int, .price, .price, .int,
      .char, .string, .string, .char, .string, .float, .string, .string, .string,
      .string, .numInGroup, .string, .string, .string, .string, .monthYear, .price,
      .string, .numInGroup, .int, .string, .localMktDate, .string, .int, .int, .int,
      .seqNum, .numInGroup, .boolean, .string, .int, .string, .string, .seqNum,
      .int]),
    (1361, [.int, .numInGroup, .string, .price, .qty, .string, .currency, .int,
      .string, .numInGroup, .string, .string, .int, .int, .int, .int, .int, .int,
      .float, .percentage, .percentage, .float, .float, .multipleCharValue, .int,
      .int, .numInGroup, .int, .boolean, .int, .char, .string, .string, .string,
      .char, .string, .length, .data, .seqNum, .int, .length, .data, .length, .data,
      .tzTimeOnly, .int, .int, .string, .int, .boolean, .int, .string, .numInGroup,
      .numInGroup, .string, .char, .int, .qty, .int, .int, .string, .qty, .qty,
      .string, .qty, .int])]

/-- `fix50sp2_std_tags`: the tags of the version before, two of them with
another type, and new ones. -/
def fix50SP2StdTags : List (Nat × FixType) :=
  fix50SP1StdTags ++ tagRuns [
    (327, [.int]), (1048, [.char]),
    (1427, [.string, .int, .int, .char, .int, .int, .string, .int, .int, .int,
      .int, .int, .int, .int, .int, .int, .int, .int, .numInGroup, .int, .int,
      .string, .string, .string, .percentage, .percentage, .string, .string,
      .percentage, .percentage, .percentage, .percentage, .percentage, .percentage,
      .numInGroup, .string, .char, .int, .string, .string, .string, .length, .data,
      .int, .int, .string, .int, .language, .numInGroup, .string, .int, .int, .int,
      .percentage, .int, .int, .numInGroup, .int, .amt, .price, .int, .percentage,
      .int, .int, .numInGroup, .utcTimestamp, .utcTimestamp, .numInGroup,
      .utcTimeOnly, .utcTimeOnly, .string, .int, .numInGroup, .string, .string, .int,
      .int, .utcTimestamp]),
    (1617, [.int])]

def fixT11StdTags : List (Nat × FixType) :=
  tagRuns [
    (7, [.seqNum, .string, .length, .string]), (16, [.seqNum]), (34, [.seqNum,
      .string, .seqNum]), (43, [.boolean]), (45, [.seqNum]), (49, [.string,
      .string]), (52, [.utcTimestamp]), (56, [.string, .string, .string]),
    (89, [.data, .length, .data]), (93, [.length]), (95, [.length, .data, .boolean,
      .int]), (108, [.int]), (112, [.string]), (115, [.string, .string]),
    (122, [.utcTimestamp, .boolean]), (128, [.string, .string]), (141, [.boolean,
      .string, .string, .string, .string]), (212, [.length, .data]),
    (347, [.string]), (354, [.length, .data]), (369, [.seqNum]), (371, [.int,
      .string, .int]), (383, [.length, .numInGroup, .char]), (464, [.boolean]),
    (553, [.string, .string]), (627, [.numInGroup, .string, .utcTimestamp,
      .seqNum]), (789, [.seqNum]), (1128, [.string, .string, .string, .string]),
    (1137, [.string])]

/-- The table that `init` takes the tags from.  A custom version has none. -/
def stdTags : FixVersion → List (Nat × FixType)
  | .custom => []
  | .fix40 => fix40StdTags
  | .fix41 => fix41StdTags
  | .fix42 => fix42StdTags
  | .fix43 => fix43StdTags
  | .fix44 => fix44StdTags
  | .fix50 => fix50StdTags
  | .fix50SP1 => fix50SP1StdTags
  | .fix50SP2 => fix50SP2StdTags
  | .fixT11 => fixT11StdTags

end MercuryFix
