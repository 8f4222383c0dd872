import SerialModbus.Text

/-! Enumerations of Global.h, and the identifiers of PVSS data points. -/
namespace SerialModbus

/- The null identifier, or one of unboundedly many others. -/
abbrev DpIdentifier := Option Nat

namespace Global
open Text (QString)

inductive DriverTypes where
  | COILS
  | REGISTERS
  deriving DecidableEq, Repr

/- A C++ object of the enumeration, or a TransformationType, holds any integer;
the driver knows two of them. -/
def DriverTypes.code : DriverTypes → Int
  | .COILS => 1701
  | .REGISTERS => 1702

inductive DPUsage where
  | ADDRESS_PORT
  | ADDRESS_MODE
  | ADDRESS_BAUDRATE
  | ADDRESS_DATABITS
  | ADDRESS_STOPBITS
  | ADDRESS_PARITY
  | ADDRESS_POLLING
  | ADDRESS_BUS
  | ADDRESS_TIMEOUT
  | ADDRESS_RETRY
  | ADDRESS_POLL_DELAY
  | STATUS_STATUS_1
  | STATUS_STATUS_2
  | STATUS_HEARTBEAT
  | STATUS_BUS
  | STATUS_BUS_INVALID
  deriving DecidableEq, Repr

inductive Status where
  | STOPPED
  | INITIALIZE
  | CONNECTED
  | STANDBY
  | DISCONNECTED
  | CONNECTED_NO_HEARTBEAT
  | DEGRADED
  deriving DecidableEq, Repr

def Status.code : Status → Int
  | .STOPPED => 0
  | .INITIALIZE => 1
  | .CONNECTED => 2
  | .STANDBY => 3
  | .DISCONNECTED => 4
  | .CONNECTED_NO_HEARTBEAT => 5
  | .DEGRADED => 6

end Global
end SerialModbus
