import DatanodeLedger.Text.Digits

/-! The commands of the program and the options that go with them. -/
namespace DatanodeLedger.CommandLine

def program : String := "minidfs-coord"

def about : String := "minidfs coordinator datanode bookkeeping"

def version : String := "0.1.0"

/-- The version together with the name of the package. -/
def build : String := version ++ " (minidfs)"

/-- What is expected as the value of an option. -/
inductive Expected where
  | path
  | number
  | text
  deriving DecidableEq, Repr

/-- A path is not empty, and a number fits a word. -/
def Expected.admits (value : String) : Expected → Bool
  | path => value ≠ ""
  | number => (Text.word? value.toList).isSome
  | text => true

structure Flag where
  /-- without the two dashes -/
  name : String
  expected : Expected
  help : String
  standard : Option String := none
  deriving Repr

/-- The flag that goes with the program and with each of its commands. -/
def config : Flag where
  name := "config"
  expected := .path
  help := "Config file (TOML); MINIDFS_* environment variables override it"

def nodes : Flag where
  name := "nodes"
  expected := .number
  help := "Number of datanodes"
  standard := some "3"

def storages : Flag where
  name := "storages"
  expected := .number
  help := "Storage volumes per datanode"
  standard := some "2"

def rounds : Flag where
  name := "rounds"
  expected := .number
  help := "Heartbeat rounds per datanode"
  standard := some "5"

def interval : Flag where
  name := "interval"
  expected := .text
  help := "Pause between rounds (e.g. 50ms, 1s)"
  standard := some "20ms"

def seed : Flag where
  name := "seed"
  expected := .number
  help := "RNG seed for reproducible runs"

inductive Verb where
  | showConfig
  | simulate
  deriving DecidableEq, Repr

namespace Verb

def all : List Verb := [showConfig, simulate]

def name : Verb → String
  | showConfig => "show-config"
  | simulate => "simulate"

def about : Verb → String
  | showConfig => "Print the effective configuration as JSON"
  | simulate => "Run an in-memory cluster through a number of heartbeat rounds"

def flags : Verb → List Flag
  | showConfig => [config]
  | simulate => [config, nodes, storages, rounds, interval, seed]

def ofName? (name : String) : Option Verb := all.find? fun verb => verb.name == name

end Verb
end DatanodeLedger.CommandLine
